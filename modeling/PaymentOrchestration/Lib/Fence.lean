/-
A resource fenced by tokens: to own it is to hold the token issued last. An owner may release the
resource, so that it can be issued again, or settle it for good; it may also be issued to another
party at any time before it is settled. `Admits` are the histories in which every operation was
allowed. In such a history an owner's operation carries the token issued last, and settling is final.
-/
import Mathlib.Data.List.Basic

namespace PaymentOrchestration.Lib

/-- What can happen to a fenced resource. -/
inductive FenceOp (τ : Type)
  | issue (t : τ)
  | settle (t : τ)
  | release (t : τ)
deriving DecidableEq

inductive FencePhase
  | held
  | settled
  | released
deriving DecidableEq

/-- A fenced resource and its last token. -/
structure Fence (τ : Type) where
  phase : FencePhase
  token : τ
deriving DecidableEq

namespace Fence

variable {τ : Type} [DecidableEq τ]

/-- The state after an operation, if it is allowed. A resource nobody has owned yet is `none`. -/
def step : Option (Fence τ) → FenceOp τ → Option (Fence τ)
  | none, .issue t => some ⟨.held, t⟩
  | none, .settle _ => none
  | none, .release _ => none
  | some f, .issue t => if f.phase = .settled then none else some ⟨.held, t⟩
  | some f, .settle t => if f.phase = .held ∧ f.token = t then some ⟨.settled, t⟩ else none
  | some f, .release t => if f.phase = .held ∧ f.token = t then some ⟨.released, t⟩ else none

/-- The history `ops` was allowed throughout and left the resource as `f`. -/
inductive Admits : List (FenceOp τ) → Option (Fence τ) → Prop
  | nil : Admits [] none
  | snoc {ops : List (FenceOp τ)} {f : Option (Fence τ)} {op : FenceOp τ} {f' : Fence τ} :
      Admits ops f → step f op = some f' → Admits (ops ++ [op]) (some f')

/-- The token issued last. -/
def lastIssued (ops : List (FenceOp τ)) : Option τ :=
  ops.reverse.findSome? fun
    | .issue t => some t
    | _ => none

omit [DecidableEq τ] in
theorem lastIssued_issue (ops : List (FenceOp τ)) (t : τ) : lastIssued (ops ++ [.issue t]) = some t := by
  simp [lastIssued]

omit [DecidableEq τ] in
theorem lastIssued_settle (ops : List (FenceOp τ)) (t : τ) : lastIssued (ops ++ [.settle t]) = lastIssued ops := by
  simp [lastIssued]

omit [DecidableEq τ] in
theorem lastIssued_release (ops : List (FenceOp τ)) (t : τ) : lastIssued (ops ++ [.release t]) = lastIssued ops := by
  simp [lastIssued]

variable {ops pre post : List (FenceOp τ)} {f f' : Option (Fence τ)} {op : FenceOp τ} {t : τ}

/-- An allowed owner's operation is the owner's: the resource is held under the operation's token. -/
theorem held_of_settle {g : Fence τ} (h : step f (.settle t) = some g) : f = some ⟨.held, t⟩ := by
  cases f with
  | none => cases h
  | some f =>
    simp only [step] at h
    split at h
    · rename_i hc; obtain ⟨p, u⟩ := f; simp only at hc; rw [hc.1, hc.2]
    · cases h

theorem held_of_release {g : Fence τ} (h : step f (.release t) = some g) : f = some ⟨.held, t⟩ := by
  cases f with
  | none => cases h
  | some f =>
    simp only [step] at h
    split at h
    · rename_i hc; obtain ⟨p, u⟩ := f; simp only at hc; rw [hc.1, hc.2]
    · cases h

/-- The token of the resource is the one issued last. -/
theorem Admits.lastIssued (h : Admits ops f) : Fence.lastIssued ops = f.map Fence.token := by
  induction h with
  | nil => rfl
  | @snoc ops f op f' _ hs ih =>
    cases op with
    | issue t =>
      rw [lastIssued_issue]
      cases f with
      | none => cases hs; rfl
      | some f =>
        simp only [step] at hs
        split at hs
        · cases hs
        · cases hs; rfl
    | settle t =>
      rw [lastIssued_settle, ih, held_of_settle hs]
      obtain rfl := held_of_settle hs
      simp only [step, and_self, if_true] at hs
      cases hs; rfl
    | release t =>
      rw [lastIssued_release, ih, held_of_release hs]
      obtain rfl := held_of_release hs
      simp only [step, and_self, if_true] at hs
      cases hs; rfl

omit [DecidableEq τ] in
theorem append_singleton_cases {l pre post : List (FenceOp τ)} {a b : FenceOp τ} (h : l ++ [a] = pre ++ b :: post) :
    (pre = l ∧ b = a ∧ post = []) ∨ ∃ post', post = post' ++ [a] ∧ l = pre ++ b :: post' := by
  rcases List.eq_nil_or_concat post with rfl | ⟨post', c, rfl⟩
  · obtain ⟨h1, h2⟩ := List.append_inj' h rfl
    exact .inl ⟨h1.symm, (List.cons.inj h2).1.symm, rfl⟩
  · rw [List.concat_eq_append, ← List.cons_append, ← List.append_assoc] at h
    obtain ⟨h1, h2⟩ := List.append_inj' h rfl
    exact .inr ⟨post', by rw [List.concat_eq_append, (List.cons.inj h2).1], h1⟩

/-- Every operation of an allowed history was allowed after the history before it. -/
theorem Admits.split (h : Admits ops f) (ho : ops = pre ++ op :: post) :
    ∃ g g', Admits pre g ∧ step g op = some g' ∧ (post = [] → f = some g') := by
  induction h generalizing post with
  | nil => simp at ho
  | @snoc l g₀ a g₁ hl hs ih =>
    rcases append_singleton_cases ho with ⟨rfl, rfl, rfl⟩ | ⟨post', rfl, rfl⟩
    · exact ⟨g₀, g₁, hl, hs, fun _ => rfl⟩
    · obtain ⟨g, g', h1, h2, -⟩ := ih rfl
      exact ⟨g, g', h1, h2, by simp⟩

/-- Settling is final: nothing follows it. -/
theorem Admits.settle_last (h : Admits ops f) (ho : ops = pre ++ .settle t :: post) : post = [] := by
  induction h generalizing post with
  | nil => simp at ho
  | @snoc l g₀ a g₁ hl hs ih =>
    rcases append_singleton_cases ho with ⟨-, -, rfl⟩ | ⟨post', rfl, rfl⟩
    · rfl
    · obtain rfl := ih rfl
      obtain ⟨g, g', -, h2, h3⟩ := hl.split rfl
      obtain rfl := held_of_settle h2
      simp only [step, and_self, if_true] at h2
      cases h2
      rw [h3 rfl] at hs
      cases a <;> simp [step] at hs

def isSettle : FenceOp τ → Bool
  | .settle _ => true
  | _ => false

/-- A resource is settled at most once. -/
theorem Admits.settle_unique (h : Admits ops f) : ops.countP isSettle ≤ 1 := by
  by_cases hm : ∃ op ∈ ops, isSettle op = true
  · obtain ⟨op, hop, hs⟩ := hm
    obtain ⟨pre, post, ho⟩ := List.append_of_mem hop
    obtain ⟨t, rfl⟩ : ∃ t, op = .settle t := by cases op <;> first | exact ⟨_, rfl⟩ | cases hs
    obtain rfl := h.settle_last ho
    have hpre : pre.countP isSettle = 0 := by
      rw [List.countP_eq_zero]
      intro x hx hxs
      obtain ⟨u, rfl⟩ : ∃ u, x = .settle u := by cases x <;> first | exact ⟨_, rfl⟩ | cases hxs
      obtain ⟨p, q, rfl⟩ := List.append_of_mem hx
      rw [List.append_assoc, List.cons_append] at ho
      have := h.settle_last ho
      simp at this
    rw [ho, List.countP_append, hpre, List.countP_singleton]
    simp [isSettle]
  · rw [List.countP_eq_zero.2 fun op hop hs => hm ⟨op, hop, hs⟩]
    exact Nat.zero_le _

end Fence

end PaymentOrchestration.Lib
