/-
A database server shared by sessions: committed data, row locks held until a transaction ends, and
the uncommitted writes of open transactions, which become visible all at once or not at all. A
statement of a session is enabled only while every row it writes or locks is free or its own; that
is the waiting of a row lock. `Undisturbed` is the fact the proofs use: what a session has locked
stays as it is, whatever the other sessions do, until the session ends its transaction.
-/
import Mathlib.Logic.Function.Basic

namespace PaymentOrchestration.Lib

/-- Data of type `D` changed by writes `W`, each of which concerns the row of one key. -/
structure Schema (D W κ : Type) where
  Row : κ → Type
  row : (k : κ) → D → Option (Row k)
  key : W → κ
  apply : D → W → D
  row_apply : ∀ {k w} (d), key w ≠ k → row k (apply d w) = row k d

namespace Schema

variable {D W κ : Type} (sch : Schema D W κ)

/-- Several writes, in order. -/
def applyAll (d : D) (ws : List W) : D := ws.foldl sch.apply d

@[simp] theorem applyAll_nil (d : D) : sch.applyAll d [] = d := rfl

@[simp] theorem applyAll_cons (d : D) (w : W) (ws : List W) :
    sch.applyAll d (w :: ws) = sch.applyAll (sch.apply d w) ws := rfl

theorem row_applyAll {k : κ} : ∀ (ws : List W) (d : D), (∀ w ∈ ws, sch.key w ≠ k) →
    sch.row k (sch.applyAll d ws) = sch.row k d
  | [], _, _ => rfl
  | w :: ws, d, h => by
    rw [applyAll_cons, row_applyAll ws _ fun x hx => h x (List.mem_cons_of_mem _ hx)]
    exact sch.row_apply d (h w List.mem_cons_self)

end Schema

/-- The server's state: an uncommitted write is on a row its session has locked, and only a session
with an open transaction holds locks. `log` is the history of the committed data: every write that has
taken effect, with its session, in the order of the commits. -/
structure Server {D W κ : Type} (sch : Schema D W κ) (τ : Type) where
  committed : D
  log : List (τ × W)
  locks : κ → Option τ
  pending : τ → Option (List W)
  locked : ∀ t ws, pending t = some ws → ∀ w ∈ ws, locks (sch.key w) = some t
  isOpen : ∀ k t, locks k = some t → (pending t).isSome

namespace Server

variable {D W κ τ : Type} {sch : Schema D W κ} [DecidableEq τ]

/-- A server without open transactions. -/
def start (d : D) : Server sch τ where
  committed := d
  log := []
  locks := fun _ => none
  pending := fun _ => none
  locked := by simp
  isOpen := by simp

/-- The row of `k` is not locked by another session than `t`. -/
def free (s : Server sch τ) (t : τ) (k : κ) : Bool := s.locks k = none ∨ s.locks k = some t

/-- A statement outside a transaction: its writes are visible at once. -/
def autocommit (s : Server sch τ) (t : τ) (ws : List W) : Option (Server sch τ) :=
  if ws.all fun w => s.free t (sch.key w) then
    some { s with committed := sch.applyAll s.committed ws, log := s.log ++ ws.map (t, ·) }
  else none

/-- Opens a transaction. -/
def begin (s : Server sch τ) (t : τ) : Server sch τ :=
  if s.pending t = none then
    { s with
      pending := Function.update s.pending t (some [])
      locked := by
        intro t' ws h
        by_cases ht : t' = t
        · subst ht
          rw [Function.update_self] at h
          cases h; simp
        · rw [Function.update_of_ne ht] at h; exact s.locked t' ws h
      isOpen := by
        intro k t' h
        by_cases ht : t' = t
        · subst ht; simp
        · rw [Function.update_of_ne ht]; exact s.isOpen k t' h }
  else s

/-- A statement inside the transaction of `t` that writes `ws` and locks the rows `ks`. -/
def stage [DecidableEq κ] (s : Server sch τ) (t : τ) (ws : List W) (ks : List κ) : Option (Server sch τ) :=
  match hp : s.pending t with
  | none => none
  | some ws₀ =>
    if hf : (ws.map sch.key ++ ks).all fun k => s.free t k then
      some
        { s with
          locks := fun k => if k ∈ ws.map sch.key ++ ks then some t else s.locks k
          pending := Function.update s.pending t (some (ws₀ ++ ws))
          locked := by
            intro t' vs h w hw
            by_cases ht : t' = t
            · subst ht
              simp only [Function.update_self, Option.some.injEq] at h
              subst h
              rcases List.mem_append.1 hw with hw | hw
              · simp only [s.locked _ _ hp w hw, ite_self]
              · rw [if_pos (List.mem_append_left _ (List.mem_map_of_mem hw))]
            · rw [Function.update_of_ne ht] at h
              have hl := s.locked t' vs h w hw
              rw [if_neg]
              · exact hl
              · intro hm
                have := List.all_eq_true.1 hf _ hm
                simp only [free, hl, reduceCtorEq, Option.some.injEq, false_or, decide_eq_true_eq] at this
                exact ht this
          isOpen := by
            intro k t' h
            by_cases ht : t' = t
            · subst ht; simp
            · rw [Function.update_of_ne ht]
              split at h
              · cases h; exact absurd rfl ht
              · exact s.isOpen k t' h }
    else none

/-- Ends the transaction of `t` with the writes `ws` taking effect. -/
def finish (s : Server sch τ) (t : τ) (ws : List W) : Server sch τ where
  committed := sch.applyAll s.committed ws
  log := s.log ++ ws.map (t, ·)
  locks := fun k => if s.locks k = some t then none else s.locks k
  pending := Function.update s.pending t none
  locked := by
    intro t' ws h w hw
    by_cases ht : t' = t
    · subst ht; simp at h
    · rw [Function.update_of_ne ht] at h
      rw [s.locked t' ws h w hw, if_neg]
      simpa using ht
  isOpen := by
    intro k t' h
    split at h
    · cases h
    · rename_i hne
      have ht : t' ≠ t := by rintro rfl; exact hne h
      rw [Function.update_of_ne ht]; exact s.isOpen k t' h

/-- Makes the writes of the transaction of `t` visible. -/
def commit (s : Server sch τ) (t : τ) : Server sch τ :=
  s.finish t ((s.pending t).getD [])

/-- Drops the writes of the transaction of `t`. -/
def rollback (s : Server sch τ) (t : τ) : Server sch τ := s.finish t []

/-! ## What each operation does -/

section Effects

variable {s s' : Server sch τ} {t : τ} {ws : List W} {ks : List κ}

theorem free_iff {k : κ} : s.free t k = true ↔ s.locks k = none ∨ s.locks k = some t := by
  simp [free]

theorem autocommit_eq_some (h : s.autocommit t ws = some s') :
    (∀ w ∈ ws, s.free t (sch.key w) = true) ∧ s'.committed = sch.applyAll s.committed ws ∧
      s'.log = s.log ++ ws.map (t, ·) ∧ s'.locks = s.locks ∧ s'.pending = s.pending := by
  unfold autocommit at h
  split at h
  · rename_i hf; cases h; exact ⟨List.all_eq_true.1 hf, rfl, rfl, rfl, rfl⟩
  · cases h

/-- A statement that only reads changes nothing. -/
@[simp] theorem autocommit_nil : s.autocommit t [] = some s := by simp [autocommit]

theorem autocommit_of_free (h : ∀ w ∈ ws, s.free t (sch.key w) = true) : s.autocommit t ws =
    some { s with committed := sch.applyAll s.committed ws, log := s.log ++ ws.map (t, ·) } :=
  if_pos (List.all_eq_true.2 h)

theorem stage_eq_some [DecidableEq κ] (h : s.stage t ws ks = some s') :
    ∃ ws₀, s.pending t = some ws₀ ∧ (∀ k ∈ ws.map sch.key ++ ks, s.free t k = true) ∧
      s'.committed = s.committed ∧ s'.log = s.log ∧ s'.pending = Function.update s.pending t (some (ws₀ ++ ws)) ∧
      s'.locks = fun k => if k ∈ ws.map sch.key ++ ks then some t else s.locks k := by
  unfold stage at h
  split at h
  · cases h
  · rename_i ws₀ hp
    split at h
    · rename_i hf; cases h; exact ⟨ws₀, hp, List.all_eq_true.1 hf, rfl, rfl, rfl, rfl⟩
    · cases h

@[simp] theorem begin_committed : (s.begin t).committed = s.committed := by
  unfold begin; split <;> rfl

@[simp] theorem begin_log : (s.begin t).log = s.log := by
  unfold begin; split <;> rfl

@[simp] theorem begin_locks : (s.begin t).locks = s.locks := by
  unfold begin; split <;> rfl

theorem begin_pending (h : s.pending t = none) : (s.begin t).pending = Function.update s.pending t (some []) := by
  unfold begin; rw [if_pos h]

@[simp] theorem rollback_committed : (s.rollback t).committed = s.committed := rfl

@[simp] theorem rollback_log : (s.rollback t).log = s.log := by simp [rollback, finish]

@[simp] theorem rollback_pending : (s.rollback t).pending = Function.update s.pending t none := rfl

@[simp] theorem commit_pending : (s.commit t).pending = Function.update s.pending t none := rfl

theorem commit_committed (h : s.pending t = some ws) : (s.commit t).committed = sch.applyAll s.committed ws := by
  simp [commit, finish, h]

theorem commit_log (h : s.pending t = some ws) : (s.commit t).log = s.log ++ ws.map (t, ·) := by
  simp [commit, finish, h]

theorem rollback_locks (k : κ) : (s.rollback t).locks k = if s.locks k = some t then none else s.locks k := rfl

theorem commit_locks (k : κ) : (s.commit t).locks k = if s.locks k = some t then none else s.locks k := rfl

omit [DecidableEq τ] in
/-- The rows an open transaction has written are not locked by another session. -/
theorem pending_key_ne {t' : τ} {k : κ} (hp : s.pending t = some ws) (hk : s.locks k = some t') (ht : t' ≠ t) :
    ∀ w ∈ ws, sch.key w ≠ k := by
  rintro w hw rfl
  rw [s.locked t ws hp w hw] at hk
  exact ht (Option.some.inj hk).symm

end Effects

/-! ## The writes of the open transactions -/

section Pending

variable {s s' : Server sch τ} {t t' : τ} {ws vs : List W} {ks : List κ} {P : W → Prop}

theorem begin_writes (h : ∀ vs, s.pending t' = some vs → ∀ w ∈ vs, P w) :
    ∀ vs, (s.begin t).pending t' = some vs → ∀ w ∈ vs, P w := by
  intro vs hvs
  unfold begin at hvs
  split at hvs
  · by_cases ht : t' = t
    · subst ht
      simp only [Function.update_self, Option.some.injEq] at hvs
      subst hvs
      nofun
    · simp only [Function.update_of_ne ht] at hvs
      exact h vs hvs
  · exact h vs hvs

theorem stage_writes [DecidableEq κ] (hs : s.stage t ws ks = some s') (h : ∀ vs, s.pending t' = some vs → ∀ w ∈ vs, P w)
    (hws : t' = t → ∀ w ∈ ws, P w) : ∀ vs, s'.pending t' = some vs → ∀ w ∈ vs, P w := by
  obtain ⟨ws₀, hp₀, -, -, -, hp, -⟩ := stage_eq_some hs
  intro vs hvs w hw
  rw [hp] at hvs
  by_cases ht : t' = t
  · subst ht
    rw [Function.update_self, Option.some.injEq] at hvs
    subst hvs
    rcases List.mem_append.1 hw with hw | hw
    · exact h ws₀ hp₀ w hw
    · exact hws rfl w hw
  · rw [Function.update_of_ne ht] at hvs
    exact h vs hvs w hw

/-- The transactions that are left when the one of `t` has ended. -/
theorem pending_of_end (hp : s'.pending = Function.update s.pending t none) (hvs : s'.pending t' = some vs) :
    t' ≠ t ∧ s.pending t' = some vs := by
  rw [hp] at hvs
  by_cases ht : t' = t
  · subst ht
    rw [Function.update_self] at hvs
    cases hvs
  · rw [Function.update_of_ne ht] at hvs
    exact ⟨ht, hvs⟩

theorem commit_writes (h : ∀ vs, s.pending t' = some vs → ∀ w ∈ vs, P w) :
    ∀ vs, (s.commit t).pending t' = some vs → ∀ w ∈ vs, P w :=
  fun vs hvs => h vs (pending_of_end commit_pending hvs).2

theorem rollback_writes (h : ∀ vs, s.pending t' = some vs → ∀ w ∈ vs, P w) :
    ∀ vs, (s.rollback t).pending t' = some vs → ∀ w ∈ vs, P w :=
  fun vs hvs => h vs (pending_of_end rollback_pending hvs).2

/-- A transaction that is open after a statement was open before. -/
theorem isSome_of_stage [DecidableEq κ] (hs : s.stage t ws ks = some s') (h : (s'.pending t').isSome) :
    (s.pending t').isSome := by
  obtain ⟨ws₀, hp₀, -, -, -, hp, -⟩ := stage_eq_some hs
  by_cases ht : t' = t
  · rw [ht, hp₀]
    rfl
  · rwa [hp, Function.update_of_ne ht] at h

end Pending

/-! ## What is true of every write -/

/-- Every write that has taken effect or is pending satisfies `P`. -/
structure Holds (P : W → Prop) (s : Server sch τ) : Prop where
  log : ∀ e ∈ s.log, P e.2
  pending : ∀ t ws, s.pending t = some ws → ∀ w ∈ ws, P w

namespace Holds

variable {P : W → Prop} {s s' : Server sch τ} {t : τ} {ws : List W} {ks : List κ}

omit [DecidableEq τ] in
theorem start (d : D) : Holds P (Server.start d : Server sch τ) := ⟨nofun, nofun⟩

theorem autocommit (h : Holds P s) (hs : s.autocommit t ws = some s') (hws : ∀ w ∈ ws, P w) : Holds P s' := by
  obtain ⟨-, -, hlog, -, hp⟩ := autocommit_eq_some hs
  refine ⟨fun e he => ?_, by rw [hp]; exact h.pending⟩
  rw [hlog, List.mem_append] at he
  rcases he with he | he
  · exact h.log e he
  · obtain ⟨w, hw, rfl⟩ := List.mem_map.1 he
    exact hws w hw

theorem begin (h : Holds P s) : Holds P (s.begin t) :=
  ⟨by rw [begin_log]; exact h.log, fun t' => begin_writes (h.pending t')⟩

theorem stage [DecidableEq κ] (h : Holds P s) (hs : s.stage t ws ks = some s') (hws : ∀ w ∈ ws, P w) : Holds P s' := by
  obtain ⟨-, -, -, -, hlog, -⟩ := stage_eq_some hs
  exact ⟨by rw [hlog]; exact h.log, fun t' => stage_writes hs (h.pending t') fun _ => hws⟩

theorem finish (h : Holds P s) (hws : ∀ w ∈ ws, P w) : Holds P (s.finish t ws) := by
  refine ⟨fun e he => ?_, fun t' vs hv => ?_⟩
  · rcases List.mem_append.1 he with he | he
    · exact h.log e he
    · obtain ⟨w, hw, rfl⟩ := List.mem_map.1 he
      exact hws w hw
  · exact h.pending t' vs (pending_of_end rfl hv).2

theorem commit (h : Holds P s) : Holds P (s.commit t) := by
  refine h.finish fun w hw => ?_
  cases hp : s.pending t with
  | none => rw [hp] at hw; cases hw
  | some vs => rw [hp] at hw; exact h.pending t vs hp w hw

theorem rollback (h : Holds P s) : Holds P (s.rollback t) := h.finish nofun

end Holds

/-! ## What a session has locked stays as it is -/

/-- From `s` to `s'` the transaction of `t`, its locks and the rows it has locked are unchanged. -/
structure Undisturbed (t : τ) (s s' : Server sch τ) : Prop where
  pending : s'.pending t = s.pending t
  locks : ∀ k, s.locks k = some t → s'.locks k = some t
  row : ∀ k, s.locks k = some t → sch.row k s'.committed = sch.row k s.committed

namespace Undisturbed

variable {s s' s'' : Server sch τ} {t t' : τ} {ws : List W} {ks : List κ}

omit [DecidableEq τ] in
@[refl] theorem refl (t : τ) (s : Server sch τ) : Undisturbed t s s := ⟨rfl, fun _ h => h, fun _ _ => rfl⟩

omit [DecidableEq τ] in
theorem trans (h : Undisturbed t s s') (h' : Undisturbed t s' s'') : Undisturbed t s s'' :=
  ⟨h'.pending.trans h.pending, fun k hk => h'.locks k (h.locks k hk),
    fun k hk => (h'.row k (h.locks k hk)).trans (h.row k hk)⟩

theorem of_autocommit (ht : t ≠ t') (h : s.autocommit t' ws = some s') : Undisturbed t s s' := by
  obtain ⟨hf, hc, -, hl, hp⟩ := autocommit_eq_some h
  refine ⟨by rw [hp], fun k hk => by rw [hl]; exact hk, fun k hk => ?_⟩
  rw [hc]
  refine sch.row_applyAll ws _ ?_
  rintro w hw rfl
  rcases free_iff.1 (hf w hw) with h0 | h0
  · rw [h0] at hk; cases hk
  · rw [h0] at hk; exact ht (Option.some.inj hk).symm

theorem of_stage [DecidableEq κ] (ht : t ≠ t') (h : s.stage t' ws ks = some s') : Undisturbed t s s' := by
  obtain ⟨ws₀, -, hf, hc, -, hp, hl⟩ := stage_eq_some h
  refine ⟨by rw [hp, Function.update_of_ne ht], fun k hk => ?_, fun k _ => by rw [hc]⟩
  rw [hl]
  simp only
  rw [if_neg]
  · exact hk
  · intro hm
    rcases free_iff.1 (hf k hm) with h0 | h0
    · rw [h0] at hk; cases hk
    · rw [h0] at hk; exact ht (Option.some.inj hk).symm

theorem of_begin (ht : t ≠ t') : Undisturbed t s (s.begin t') := by
  refine ⟨?_, fun k hk => by simpa using hk, fun k _ => by simp⟩
  unfold begin; split
  · exact Function.update_of_ne ht _ _
  · rfl

theorem of_rollback (ht : t ≠ t') : Undisturbed t s (s.rollback t') := by
  refine ⟨by simp [Function.update_of_ne ht], fun k hk => ?_, fun k _ => by simp⟩
  rw [rollback_locks, if_neg]
  · exact hk
  · rw [hk]; simpa using ht

theorem of_commit (ht : t ≠ t') : Undisturbed t s (s.commit t') := by
  refine ⟨by simp [Function.update_of_ne ht], fun k hk => ?_, fun k hk => ?_⟩
  · rw [commit_locks, if_neg]
    · exact hk
    · rw [hk]; simpa using ht
  · cases hp : s.pending t' with
    | none => simp [commit, finish, hp]
    | some ws =>
      rw [commit_committed hp]
      exact sch.row_applyAll ws _ (pending_key_ne hp hk ht)

end Undisturbed

end Server

end PaymentOrchestration.Lib
