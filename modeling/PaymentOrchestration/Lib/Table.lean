/-
Tables with a primary key. A table carries the proof that its keys are distinct, so `get?` by key
determines membership, and each operation is described by what it does to `get?`.
-/
import Mathlib.Data.List.Nodup
import Mathlib.Algebra.Ring.Nat

namespace PaymentOrchestration.Lib

/-- Rows with distinct keys, in insertion order. -/
structure Table {κ ρ : Type} (key : ρ → κ) where
  rows : List ρ
  nodup : (rows.map key).Nodup

namespace Table

variable {κ ρ : Type} {key : ρ → κ} [DecidableEq κ]

omit [DecidableEq κ] in
theorem inj (t : Table key) {r r' : ρ} (h : r ∈ t.rows) (h' : r' ∈ t.rows) (hk : key r = key r') : r = r' :=
  List.inj_on_of_nodup_map t.nodup h h' hk

def empty : Table key := ⟨[], by simp⟩

/-- The row with key `k`. -/
def get? (t : Table key) (k : κ) : Option ρ := t.rows.find? fun r => key r = k

theorem get?_eq_some {t : Table key} {k : κ} {r : ρ} : t.get? k = some r ↔ r ∈ t.rows ∧ key r = k := by
  constructor
  · intro h
    exact ⟨List.mem_of_find?_eq_some h, by simpa using List.find?_some h⟩
  · rintro ⟨hr, rfl⟩
    unfold get?
    cases hf : t.rows.find? fun x => key x = key r with
    | none => simpa using List.find?_eq_none.1 hf r hr
    | some r' =>
      have hk : key r' = key r := by simpa using List.find?_some hf
      rw [t.inj (List.mem_of_find?_eq_some hf) hr hk]

theorem get?_eq_none {t : Table key} {k : κ} : t.get? k = none ↔ ∀ r ∈ t.rows, key r ≠ k := by
  simp [get?, List.find?_eq_none]

theorem key_of_get? {t : Table key} {k : κ} {r : ρ} (h : t.get? k = some r) : key r = k :=
  (get?_eq_some.1 h).2

theorem mem_of_get? {t : Table key} {k : κ} {r : ρ} (h : t.get? k = some r) : r ∈ t.rows :=
  (get?_eq_some.1 h).1

theorem mem_iff {t : Table key} {r : ρ} : r ∈ t.rows ↔ t.get? (key r) = some r := by
  simp [get?_eq_some]

@[simp] theorem get?_empty (k : κ) : (empty : Table key).get? k = none := rfl

omit [DecidableEq κ] in
@[simp] theorem rows_empty : (empty : Table key).rows = [] := rfl

/-! ## Insertion -/

/-- Appends a row, unless its key is taken. -/
def insert (t : Table key) (r : ρ) : Table key :=
  if h : t.get? (key r) = none then
    ⟨t.rows ++ [r], by
      rw [List.map_append, List.nodup_append]
      refine ⟨t.nodup, by simp, ?_⟩
      rintro a ha b hb rfl
      obtain ⟨x, hx, rfl⟩ := List.mem_map.1 ha
      simp only [List.map_cons, List.map_nil, List.mem_singleton] at hb
      exact get?_eq_none.1 h x hx hb⟩
  else t

theorem rows_insert {t : Table key} {r : ρ} (h : t.get? (key r) = none) : (t.insert r).rows = t.rows ++ [r] := by
  unfold insert; rw [dif_pos h]

theorem mem_insert {t : Table key} {r x : ρ} (h : t.get? (key r) = none) :
    x ∈ (t.insert r).rows ↔ x ∈ t.rows ∨ x = r := by
  rw [rows_insert h]; simp

/-- Whether or not the key is taken. -/
theorem mem_of_insert {t : Table key} {r x : ρ} (h : x ∈ (t.insert r).rows) : x ∈ t.rows ∨ x = r := by
  by_cases hn : t.get? (key r) = none
  · exact (mem_insert hn).1 h
  · rw [insert, dif_neg hn] at h; exact .inl h

theorem get?_insert_self {t : Table key} {r : ρ} (h : t.get? (key r) = none) :
    (t.insert r).get? (key r) = some r :=
  get?_eq_some.2 ⟨(mem_insert h).2 (.inr rfl), rfl⟩

theorem get?_insert_of_ne {t : Table key} {r : ρ} {k : κ} (hk : key r ≠ k) :
    (t.insert r).get? k = t.get? k := by
  unfold insert
  split
  · simp [get?, List.find?_append, hk]
  · rfl

/-! ## Replacement -/

/-- Replaces the row with the key of `r` by `r`, if there is one. -/
def put (t : Table key) (r : ρ) : Table key :=
  ⟨t.rows.map fun x => if key x = key r then r else x, by
    have : (t.rows.map fun x => if key x = key r then r else x).map key = t.rows.map key := by
      rw [List.map_map]
      refine List.map_congr_left fun x _ => ?_
      simp only [Function.comp_apply]
      split
      · rename_i h; exact h.symm
      · rfl
    rw [this]; exact t.nodup⟩

theorem get?_put_self {t : Table key} {r x : ρ} (h : t.get? (key r) = some x) : (t.put r).get? (key r) = some r := by
  obtain ⟨hx, hk⟩ := get?_eq_some.1 h
  exact get?_eq_some.2 ⟨List.mem_map.2 ⟨x, hx, by simp [hk]⟩, rfl⟩

theorem get?_put_of_ne {t : Table key} {r : ρ} {k : κ} (hk : key r ≠ k) : (t.put r).get? k = t.get? k := by
  ext x
  simp only [get?_eq_some, put, List.mem_map]
  constructor
  · rintro ⟨⟨y, hy, rfl⟩, h⟩
    split at h
    · exact absurd h hk
    · rename_i hne; rw [if_neg hne]; exact ⟨hy, h⟩
  · rintro ⟨hx, rfl⟩
    exact ⟨⟨x, hx, by rw [if_neg (Ne.symm hk)]⟩, rfl⟩

theorem mem_put {t : Table key} {r x y : ρ} (h : t.get? (key r) = some x) :
    y ∈ (t.put r).rows ↔ y = r ∨ (y ∈ t.rows ∧ key y ≠ key r) := by
  rw [mem_iff]
  by_cases hk : key r = key y
  · rw [← hk, get?_put_self h]
    simp only [Option.some.injEq, not_true_eq_false, and_false, or_false, ne_eq]
    exact eq_comm
  · rw [get?_put_of_ne hk, ← mem_iff]
    constructor
    · exact fun hy => .inr ⟨hy, Ne.symm hk⟩
    · rintro (rfl | hy)
      · exact absurd rfl hk
      · exact hy.1

/-- Whether or not there is a row to replace. -/
theorem mem_of_put {t : Table key} {r x : ρ} (h : x ∈ (t.put r).rows) : x ∈ t.rows ∨ x = r := by
  obtain ⟨y, hy, rfl⟩ := List.mem_map.1 h
  split
  · exact .inr rfl
  · exact .inl hy

/-! ## Changing every row -/

section Traverse

variable {ε ρ' : Type} {key' : ρ' → κ} {f : ρ → Except ε ρ'}

omit [DecidableEq κ] in
theorem forall₂_of_mapM :
    ∀ {l : List ρ} {l' : List ρ'}, l.mapM f = .ok l' → List.Forall₂ (fun r r' => f r = .ok r') l l'
  | [], l', h => by
    rw [List.mapM_nil] at h
    cases h; exact .nil
  | r :: l, l', h => by
    rw [List.mapM_cons] at h
    cases hr : f r with
    | error e => rw [hr] at h; cases h
    | ok r' =>
      cases hl : l.mapM f with
      | error e => rw [hr, hl] at h; cases h
      | ok rest =>
        rw [hr, hl] at h
        cases h
        exact .cons hr (forall₂_of_mapM hl)

omit [DecidableEq κ] in
theorem map_key_of_forall₂ (hf : ∀ r r', f r = .ok r' → key' r' = key r) {l : List ρ} {l' : List ρ'}
    (h : List.Forall₂ (fun r r' => f r = .ok r') l l') : l'.map key' = l.map key := by
  induction h with
  | nil => rfl
  | cons hr _ ih => rw [List.map_cons, List.map_cons, ih, hf _ _ hr]

/-- Changes every row by `f`, which keeps its key. A row that `f` refuses fails the whole change. -/
def traverse (f : ρ → Except ε ρ') (hf : ∀ r r', f r = .ok r' → key' r' = key r) (t : Table key) :
    Except ε (Table key') :=
  match h : t.rows.mapM f with
  | .ok rows => .ok ⟨rows, by rw [map_key_of_forall₂ hf (forall₂_of_mapM h)]; exact t.nodup⟩
  | .error e => .error e

variable {hf : ∀ r r', f r = .ok r' → key' r' = key r} {t : Table key} {t' : Table key'}

omit [DecidableEq κ] in
theorem forall₂_traverse (h : t.traverse f hf = .ok t') : List.Forall₂ (fun r r' => f r = .ok r') t.rows t'.rows := by
  unfold traverse at h
  split at h
  · rename_i rows hrows; cases h; exact forall₂_of_mapM hrows
  · cases h

omit [DecidableEq κ] in
theorem exists_of_forall₂ {α β : Type} {R : α → β → Prop} {l : List α} {l' : List β} (h : List.Forall₂ R l l') :
    ∀ a ∈ l, ∃ b ∈ l', R a b := by
  induction h with
  | nil => exact fun _ ha => absurd ha List.not_mem_nil
  | @cons x y _ _ hxy _ ih =>
    intro a ha
    rcases List.mem_cons.1 ha with rfl | ha
    · exact ⟨y, List.mem_cons_self, hxy⟩
    · obtain ⟨b, hb, hab⟩ := ih a ha
      exact ⟨b, List.mem_cons_of_mem _ hb, hab⟩

omit [DecidableEq κ] in
theorem traverse_of_mem (h : t.traverse f hf = .ok t') {r : ρ} (hr : r ∈ t.rows) : ∃ r' ∈ t'.rows, f r = .ok r' :=
  exists_of_forall₂ (forall₂_traverse h) r hr

omit [DecidableEq κ] in
theorem mem_of_traverse (h : t.traverse f hf = .ok t') {r' : ρ'} (hr : r' ∈ t'.rows) : ∃ r ∈ t.rows, f r = .ok r' :=
  exists_of_forall₂ (List.Forall₂.flip (forall₂_traverse h)) r' hr

omit [DecidableEq κ] in
/-- What `f` keeps of every row, it keeps of the rows in order. -/
theorem map_of_traverse {γ : Type} (g : ρ → γ) (g' : ρ' → γ) (hg : ∀ r r', f r = .ok r' → g' r' = g r)
    (h : t.traverse f hf = .ok t') : t'.rows.map g' = t.rows.map g :=
  map_key_of_forall₂ hg (forall₂_traverse h)

end Traverse

/-! ## Summing over rows -/

/-- The sum of what the rows weigh. -/
def total (t : Table key) (f : ρ → Nat) : Nat := (t.rows.map f).sum

theorem total_insert {t : Table key} {r : ρ} (h : t.get? (key r) = none) (f : ρ → Nat) :
    (t.insert r).total f = t.total f + f r := by
  unfold total
  rw [rows_insert h, List.map_append, List.sum_append]
  simp

theorem sum_put {r : ρ} (f : ρ → Nat) : ∀ (l : List ρ), (l.map key).Nodup → ∀ x ∈ l, key x = key r →
    ((l.map fun y => if key y = key r then r else y).map f).sum + f x = (l.map f).sum + f r
  | y :: l, hnd, x, hx, hk => by
    rw [List.map_cons, List.nodup_cons] at hnd
    simp only [List.map_cons, List.sum_cons]
    rcases List.mem_cons.1 hx with rfl | hx
    · have hrest : (l.map fun y => if key y = key r then r else y) = l := by
        refine (List.map_congr_left fun y hy => ?_).trans (List.map_id l)
        rw [if_neg]; rfl
        exact fun he => hnd.1 (List.mem_map.2 ⟨y, hy, he.trans hk.symm⟩)
      rw [hrest, if_pos hk]
      omega
    · have hne : key y ≠ key r := fun he => hnd.1 (List.mem_map.2 ⟨x, hx, hk.trans he.symm⟩)
      have := sum_put f l hnd.2 x hx hk
      rw [if_neg hne]
      omega

/-- Replacing the row `x`. -/
theorem total_put {t : Table key} {r x : ρ} (h : t.get? (key r) = some x) (f : ρ → Nat) :
    (t.put r).total f + f x = t.total f + f r := by
  obtain ⟨hx, hk⟩ := get?_eq_some.1 h
  exact sum_put f t.rows t.nodup x hx hk

/-! ## Counting rows -/

/-- The number of rows that satisfy `p`. -/
def count (t : Table key) (p : ρ → Bool) : Nat := t.rows.countP p

omit [DecidableEq κ] in
theorem count_eq_total (t : Table key) (p : ρ → Bool) : t.count p = t.total fun r => (p r).toNat := by
  unfold count total
  induction t.rows with
  | nil => rfl
  | cons r rows ih =>
    rw [List.countP_cons, List.map_cons, List.sum_cons, ih, Nat.add_comm]
    cases p r <;> rfl

theorem count_insert {t : Table key} {r : ρ} (h : t.get? (key r) = none) (p : ρ → Bool) :
    (t.insert r).count p = t.count p + (p r).toNat := by
  rw [count_eq_total, count_eq_total, total_insert h]

/-- Replacing the row `x`. -/
theorem count_put {t : Table key} {r x : ρ} (h : t.get? (key r) = some x) (p : ρ → Bool) :
    (t.put r).count p + (p x).toNat = t.count p + (p r).toNat := by
  rw [count_eq_total, count_eq_total, total_put h]

omit [DecidableEq κ] in
theorem count_eq_zero {t : Table key} {p : ρ → Bool} : t.count p = 0 ↔ ∀ r ∈ t.rows, p r = false := by
  simp [count, List.countP_eq_zero]

omit [DecidableEq κ] in
/-- Exactly one row satisfies `p`. -/
theorem count_eq_one {t : Table key} {p : ρ → Bool} :
    t.count p = 1 ↔ ∃ r ∈ t.rows, p r = true ∧ ∀ x ∈ t.rows, p x = true → x = r := by
  unfold count
  rw [List.countP_eq_length_filter, List.length_eq_one_iff]
  constructor
  · rintro ⟨r, hr⟩
    have hm : ∀ x, x ∈ t.rows ∧ p x = true ↔ x = r := by
      intro x; rw [← List.mem_filter, hr, List.mem_singleton]
    exact ⟨r, ((hm r).2 rfl).1, ((hm r).2 rfl).2, fun x hx hp => (hm x).1 ⟨hx, hp⟩⟩
  · rintro ⟨r, hr, hp, huniq⟩
    refine ⟨r, List.perm_singleton.1 ?_⟩
    have hnd : (t.rows.filter p).Nodup := (List.Nodup.of_map key t.nodup).filter p
    refine (List.perm_ext_iff_of_nodup hnd (List.nodup_singleton r)).2 fun x => ?_
    rw [List.mem_filter, List.mem_singleton]
    constructor
    · exact fun hx => huniq x hx.1 hx.2
    · rintro rfl; exact ⟨hr, hp⟩

end Table

end PaymentOrchestration.Lib
