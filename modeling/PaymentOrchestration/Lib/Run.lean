/-
Guarded transition systems: a step is a partial function, so that one definition serves both to
replay a concrete run and to state what every run does. Runs may be restricted to steps that meet
a condition, which is how assumptions about the environment enter a theorem.
-/
import Mathlib.Logic.Function.Basic

namespace PaymentOrchestration.Lib

/-- What an entry is after one has been set, in a state that has an entry for each party. -/
theorem update_eq_some {ι β : Type} [DecidableEq ι] {f : ι → Option β} {i j : ι} {x y : β}
    (h : Function.update f i (some x) j = some y) : j = i ∧ y = x ∨ j ≠ i ∧ f j = some y := by
  by_cases hj : j = i
  · subst hj
    rw [Function.update_self] at h
    exact .inl ⟨rfl, (Option.some.inj h).symm⟩
  · rw [Function.update_of_ne hj] at h
    exact .inr ⟨hj, h⟩

/-- A transition system: an initial state and a guarded step function. -/
structure System (σ α : Type) where
  init : σ
  step : σ → α → Option σ

namespace System

variable {σ α : Type} (sys : System σ α)

/-- A run from `s` to `s'`, every step of which is enabled and meets `ok`. -/
inductive Steps (ok : σ → α → Prop) (s : σ) : σ → Prop
  | refl : Steps ok s s
  | tail {s' s'' : σ} {a : α} : Steps ok s s' → ok s' a → sys.step s' a = some s'' → Steps ok s s''

/-- The states of the runs from the initial state. -/
def Reach (ok : σ → α → Prop) (s : σ) : Prop := sys.Steps ok sys.init s

/-- No restriction on the steps of a run. -/
def anyStep : σ → α → Prop := fun _ _ => True

variable {sys} {ok ok' : σ → α → Prop}

theorem Reach.init : sys.Reach ok sys.init := .refl

theorem Reach.step {s s' : σ} {a : α} (h : sys.Reach ok s) (hok : ok s a)
    (hs : sys.step s a = some s') : sys.Reach ok s' :=
  .tail h hok hs

theorem Steps.single {s s' : σ} {a : α} (hok : ok s a) (hs : sys.step s a = some s') :
    sys.Steps ok s s' :=
  .tail .refl hok hs

theorem Steps.trans {s s' s'' : σ} (h : sys.Steps ok s s') (h' : sys.Steps ok s' s'') :
    sys.Steps ok s s'' := by
  induction h' with
  | refl => exact h
  | tail _ hok hs ih => exact .tail ih hok hs

theorem Reach.steps {s s' : σ} (h : sys.Reach ok s) (h' : sys.Steps ok s s') : sys.Reach ok s' :=
  Steps.trans h h'

theorem Steps.mono (hmono : ∀ s a, ok s a → ok' s a) {s s' : σ} (h : sys.Steps ok s s') :
    sys.Steps ok' s s' := by
  induction h with
  | refl => exact .refl
  | tail _ hok hs ih => exact .tail ih (hmono _ _ hok) hs

theorem Reach.any {s : σ} (h : sys.Reach ok s) : sys.Reach anyStep s :=
  Steps.mono (fun _ _ _ => trivial) h

/-! ## Induction rules -/

/-- A property kept by every step of a run holds at its end. -/
theorem Steps.invariant {P : σ → Prop} {s s' : σ} (h : sys.Steps ok s s') (hs : P s)
    (hstep : ∀ s a s', P s → ok s a → sys.step s a = some s' → P s') : P s' := by
  induction h with
  | refl => exact hs
  | tail _ hok hse ih => exact hstep _ _ _ ih hok hse

/-- A property kept by every step from the states where the invariant `I` holds. -/
theorem Steps.invariant_of {I P : σ → Prop} {s s' : σ} (h : sys.Steps ok s s') (hI : I s)
    (hIstep : ∀ s a s', I s → ok s a → sys.step s a = some s' → I s') (hs : P s)
    (hstep : ∀ s a s', I s → P s → ok s a → sys.step s a = some s' → P s') : P s' :=
  (h.invariant (P := fun s => I s ∧ P s) ⟨hI, hs⟩ fun s a s' hp hok hse =>
    ⟨hIstep s a s' hp.1 hok hse, hstep s a s' hp.1 hp.2 hok hse⟩).2

/-- A property that holds initially and is kept by every step holds in every reachable state. -/
theorem Reach.invariant {P : σ → Prop} {s : σ} (h : sys.Reach ok s) (hinit : P sys.init)
    (hstep : ∀ s a s', P s → ok s a → sys.step s a = some s' → P s') : P s :=
  Steps.invariant h hinit hstep

/-- A run of one system is a run of another, as which its steps are seen. -/
theorem Steps.map {σ' α' : Type} {sys' : System σ' α'} {ok' : σ' → α' → Prop} {f : σ → σ'}
    {s s' : σ} (h : sys.Steps ok s s')
    (hstep : ∀ t a t', ok t a → sys.step t a = some t' → sys'.Steps ok' (f t) (f t')) :
    sys'.Steps ok' (f s) (f s') := by
  induction h with
  | refl => exact .refl
  | tail _ hok hs ih => exact ih.trans (hstep _ _ _ hok hs)

/-! ## Runs with their actions -/

variable (sys) in
/-- A run and the actions it takes. -/
inductive Trace (ok : σ → α → Prop) : σ → List α → σ → Prop
  | nil {s : σ} : Trace ok s [] s
  | cons {s s' s'' : σ} {a : α} {as : List α} : ok s a → sys.step s a = some s' → Trace ok s' as s'' →
      Trace ok s (a :: as) s''

theorem Trace.steps {s s' : σ} {as : List α} (h : sys.Trace ok s as s') : sys.Steps ok s s' := by
  induction h with
  | nil => exact .refl
  | cons hok hs _ ih => exact (Steps.single hok hs).trans ih

theorem Trace.snoc {s s' s'' : σ} {a : α} {as : List α} (h : sys.Trace ok s as s') (hok : ok s' a)
    (hs : sys.step s' a = some s'') : sys.Trace ok s (as ++ [a]) s'' := by
  induction h with
  | nil => exact .cons hok hs .nil
  | cons hok' hs' _ ih => exact .cons hok' hs' (ih hok hs)

theorem Trace.head {s s'' : σ} {a : α} {as : List α} (h : sys.Trace ok s (a :: as) s'') :
    ∃ s', ok s a ∧ sys.step s a = some s' ∧ sys.Trace ok s' as s'' := by
  cases h with
  | cons hok hs h => exact ⟨_, hok, hs, h⟩

/-- A run is restricted further by what is known of its actions. -/
theorem Trace.restrict {s s' : σ} {as : List α} (h : sys.Trace ok s as s') (hok : ∀ a ∈ as, ∀ s, ok s a → ok' s a) :
    sys.Trace ok' s as s' := by
  induction h with
  | nil => exact .nil
  | cons hok' hs _ ih =>
    exact .cons (hok _ List.mem_cons_self _ hok') hs (ih fun a ha => hok a (List.mem_cons_of_mem _ ha))

/-- A run can be cut anywhere. -/
theorem Trace.split {s s'' : σ} : ∀ {as bs : List α}, sys.Trace ok s (as ++ bs) s'' →
    ∃ s', sys.Trace ok s as s' ∧ sys.Trace ok s' bs s''
  | [], _, h => ⟨s, .nil, h⟩
  | _ :: _, _, .cons hok hs h =>
    let ⟨s', h1, h2⟩ := h.split
    ⟨s', .cons hok hs h1, h2⟩

/-- A property kept by the actions of a run. -/
theorem Trace.invariant {P : σ → Prop} {s s' : σ} {as : List α} (h : sys.Trace ok s as s') (hs : P s)
    (hstep : ∀ s a s', a ∈ as → P s → ok s a → sys.step s a = some s' → P s') : P s' := by
  induction h with
  | nil => exact hs
  | cons hok hse _ ih =>
    exact ih (hstep _ _ _ List.mem_cons_self hs hok hse) fun s a s' ha => hstep s a s' (List.mem_cons_of_mem _ ha)

/-- A property of a state and the actions that led to it. -/
theorem Trace.history {P : List α → σ → Prop} {s s' : σ} {as : List α} (h : sys.Trace ok s as s') (hs : P [] s)
    (hstep : ∀ pre s a s', P pre s → ok s a → sys.step s a = some s' → P (pre ++ [a]) s') : P as s' := by
  -- `pre` are the actions before `s`
  suffices hrest : ∀ pre, P pre s → P (pre ++ as) s' from hrest [] hs
  clear hs
  induction h with
  | nil =>
    intro pre hpre
    rw [List.append_nil]
    exact hpre
  | @cons _ _ _ a as hok hse _ ih =>
    intro pre hpre
    rw [List.append_cons]
    exact ih _ (hstep _ _ _ _ hpre hok hse)

/-! ## Replaying a concrete run -/

variable (sys) in
/-- The state after the actions `as` from `s`, if each is enabled in turn. -/
def runFrom (s : σ) : List α → Option σ
  | [] => some s
  | a :: as => (sys.step s a).bind fun s' => runFrom s' as

theorem steps_of_runFrom :
    ∀ (as : List α) {s s' : σ}, (∀ a ∈ as, ∀ s, ok s a) → sys.runFrom s as = some s' → sys.Steps ok s s'
  | [], s, s', _, h => by
    cases h; exact .refl
  | a :: as, s, s', hok, h => by
    obtain ⟨t, ht, h⟩ := Option.bind_eq_some_iff.1 h
    exact (Steps.single (hok a List.mem_cons_self s) ht).trans
      (steps_of_runFrom as (fun b hb => hok b (List.mem_cons_of_mem _ hb)) h)

theorem trace_of_runFrom :
    ∀ (as : List α) {s s' : σ}, (∀ a ∈ as, ∀ s, ok s a) → sys.runFrom s as = some s' → sys.Trace ok s as s'
  | [], s, s', _, h => by
    cases h; exact .nil
  | a :: as, s, s', hok, h => by
    obtain ⟨t, ht, h⟩ := Option.bind_eq_some_iff.1 h
    exact .cons (hok a List.mem_cons_self s) ht (trace_of_runFrom as (fun b hb => hok b (List.mem_cons_of_mem _ hb)) h)

variable (sys) in
/-- The same, if each step also meets `ok`. -/
def runWhile (ok : σ → α → Bool) (s : σ) : List α → Option σ
  | [] => some s
  | a :: as => if ok s a then (sys.step s a).bind fun s' => runWhile ok s' as else none

theorem trace_of_runWhile {ok : σ → α → Bool} : ∀ (as : List α) {s s' : σ}, sys.runWhile ok s as = some s' →
    sys.Trace (fun s a => ok s a = true) s as s'
  | [], s, s', h => by
    cases h; exact .nil
  | a :: as, s, s', h => by
    unfold runWhile at h
    split at h
    · rename_i hok
      obtain ⟨t, ht, h⟩ := Option.bind_eq_some_iff.1 h
      exact .cons hok ht (trace_of_runWhile as h)
    · cases h

theorem steps_of_runWhile {ok : σ → α → Bool} (as : List α) {s s' : σ} (h : sys.runWhile ok s as = some s') :
    sys.Steps (fun s a => ok s a = true) s s' :=
  (trace_of_runWhile as h).steps

theorem reach_of_runWhile {ok : σ → α → Bool} {as : List α} {s : σ} (h : sys.runWhile ok sys.init as = some s) :
    sys.Reach (fun s a => ok s a = true) s :=
  steps_of_runWhile as h

theorem runFrom_append : ∀ (as bs : List α) (s : σ),
    sys.runFrom s (as ++ bs) = (sys.runFrom s as).bind fun s' => sys.runFrom s' bs
  | [], _, _ => rfl
  | a :: as, bs, s => by
    simp only [List.cons_append, runFrom, Option.bind_assoc]
    exact congrArg _ (funext fun s' => runFrom_append as bs s')

/-- What a run is known to end with holds of the state it leads to. -/
theorem of_ends {P : σ → Bool} {s : σ} {s? : Option σ} (hs : s? = some s) (h : s?.any P = true) : P s = true := by
  rw [hs, Option.any_some] at h
  exact h

theorem reach_of_run {as : List α} {s : σ} (h : sys.runFrom sys.init as = some s) :
    sys.Reach anyStep s :=
  steps_of_runFrom as (fun _ _ _ => trivial) h

end System

end PaymentOrchestration.Lib
