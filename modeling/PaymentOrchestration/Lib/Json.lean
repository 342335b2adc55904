/-
JSON values with member lists, and the orders their members can be put in. Two values are `Same` when
they are equal up to the order of object members; `same_reorder`: sorting the members, at every depth
and by any total order of the names, gives the same value. What is done to the members by their names
alone, such as sorting or leaving some out, commutes with what is done to their values.
-/
import PaymentOrchestration.Lib.Number
import Mathlib.Data.List.Sort
import Mathlib.Data.String.Basic

namespace PaymentOrchestration.Lib

/-- A JSON value whose strings and member names are of type `σ`, and whose numbers are of type `ν`. -/
inductive Json (σ : Type) (ν : Type := Number) where
  | null
  | bool (b : Bool)
  | num (n : ν)
  | str (s : σ)
  | arr (items : List (Json σ ν))
  | obj (members : List (σ × Json σ ν))

namespace Json

variable {σ ν : Type}

/-- Induction with the hypothesis for every item and every member. -/
theorem ind {P : Json σ ν → Prop} (null : P .null) (bool : ∀ b, P (.bool b)) (num : ∀ n, P (.num n))
    (str : ∀ s, P (.str s)) (arr : ∀ items, (∀ v ∈ items, P v) → P (.arr items))
    (obj : ∀ members, (∀ m ∈ members, P m.2) → P (.obj members)) (v : Json σ ν) : P v :=
  @Json.rec σ ν P (fun vs => ∀ v ∈ vs, P v) (fun ms => ∀ m ∈ ms, P m.2) (fun m => P m.2) null bool num str arr obj
    (by simp) (fun _ _ hv hvs => by simpa using ⟨hv, hvs⟩) (by simp)
    (fun _ _ hm hms => List.forall_mem_cons.2 ⟨hm, hms⟩) (fun _ _ hv => hv) v

/-- The value of the member `k`. -/
def lookup [DecidableEq σ] (k : σ) (members : List (σ × Json σ ν)) : Option (Json σ ν) :=
  (members.find? fun m => m.1 = k).map Prod.snd

/-! ## Putting the members in order -/

mutual

/-- Applies `f` to the members of every object, the innermost first. -/
def reorder (f : List (σ × Json σ ν) → List (σ × Json σ ν)) : Json σ ν → Json σ ν
  | .null => .null
  | .bool b => .bool b
  | .num n => .num n
  | .str s => .str s
  | .arr items => .arr (reorderItems f items)
  | .obj members => .obj (f (reorderMembers f members))
termination_by structural v => v

def reorderItems (f : List (σ × Json σ ν) → List (σ × Json σ ν)) : List (Json σ ν) → List (Json σ ν)
  | [] => []
  | v :: vs => reorder f v :: reorderItems f vs
termination_by structural vs => vs

def reorderMembers (f : List (σ × Json σ ν) → List (σ × Json σ ν)) : List (σ × Json σ ν) → List (σ × Json σ ν)
  | [] => []
  | (k, v) :: ms => (k, reorder f v) :: reorderMembers f ms
termination_by structural ms => ms

end

theorem reorderItems_eq (f : List (σ × Json σ ν) → List (σ × Json σ ν)) :
    ∀ vs, reorderItems f vs = vs.map (reorder f)
  | [] => rfl
  | v :: vs => by rw [reorderItems, reorderItems_eq f vs, List.map_cons]

theorem reorderMembers_eq (f : List (σ × Json σ ν) → List (σ × Json σ ν)) :
    ∀ ms, reorderMembers f ms = ms.map (Prod.map id (reorder f))
  | [] => rfl
  | (k, v) :: ms => by rw [reorderMembers, reorderMembers_eq f ms, List.map_cons]; rfl

mutual

/-- Every string and member name satisfies `p`. -/
def allStrings (p : σ → Bool) : Json σ ν → Bool
  | .null | .bool _ | .num _ => true
  | .str s => p s
  | .arr items => allStringsItems p items
  | .obj members => allStringsMembers p members
termination_by structural v => v

def allStringsItems (p : σ → Bool) : List (Json σ ν) → Bool
  | [] => true
  | v :: vs => allStrings p v && allStringsItems p vs
termination_by structural vs => vs

def allStringsMembers (p : σ → Bool) : List (σ × Json σ ν) → Bool
  | [] => true
  | (k, v) :: ms => p k && allStrings p v && allStringsMembers p ms
termination_by structural ms => ms

end

/-- The member names are distinct in every object of the value. -/
inductive Distinct : Json σ ν → Prop
  | null : Distinct .null
  | bool (b) : Distinct (.bool b)
  | num (n) : Distinct (.num n)
  | str (s) : Distinct (.str s)
  | arr {items} : (∀ v ∈ items, Distinct v) → Distinct (.arr items)
  | obj {members} : (members.map Prod.fst).Nodup → (∀ m ∈ members, Distinct m.2) → Distinct (.obj members)

theorem Distinct.nodup {members : List (σ × Json σ ν)} (h : Distinct (.obj members)) :
    (members.map Prod.fst).Nodup := by
  cases h; assumption

theorem Distinct.member {members : List (σ × Json σ ν)} (h : Distinct (.obj members)) :
    ∀ m ∈ members, Distinct m.2 := by
  cases h; assumption

theorem Distinct.item {items : List (Json σ ν)} (h : Distinct (.arr items)) : ∀ v ∈ items, Distinct v := by
  cases h; assumption

theorem map_fst_map {ν' : Type} (φ : Json σ ν → Json σ ν') (ms : List (σ × Json σ ν)) :
    (ms.map (Prod.map id φ)).map Prod.fst = ms.map Prod.fst := by
  rw [List.map_map]; rfl

/-- An order of names as an order of members. -/
def byName (r : σ → σ → Prop) (a b : σ × Json σ ν) : Prop := r a.1 b.1

instance (r : σ → σ → Prop) [DecidableRel r] : DecidableRel (byName (ν := ν) r) :=
  fun a b => inferInstanceAs (Decidable (r a.1 b.1))

/-- Members sorted by name. -/
def sortMembers (r : σ → σ → Prop) [DecidableRel r] (members : List (σ × Json σ ν)) : List (σ × Json σ ν) :=
  members.insertionSort (byName r)

section Sorting

variable (r : σ → σ → Prop) [DecidableRel r]

theorem sortMembers_perm (ms : List (σ × Json σ ν)) : (sortMembers r ms).Perm ms := List.perm_insertionSort _ ms

theorem sortMembers_map {ν' : Type} (φ : Json σ ν → Json σ ν') (ms : List (σ × Json σ ν)) :
    sortMembers r (ms.map (Prod.map id φ)) = (sortMembers r ms).map (Prod.map id φ) :=
  (List.map_insertionSort (byName r) (byName r) (Prod.map id φ) ms fun _ _ _ _ => Iff.rfl).symm

theorem sortMembers_pairwise [Std.Total r] [IsTrans σ r] (ms : List (σ × Json σ ν)) :
    (sortMembers r ms).Pairwise (byName r) := by
  have : Std.Total (byName (ν := ν) r) := ⟨fun a b => Std.Total.total (r := r) a.1 b.1⟩
  have : IsTrans (σ × Json σ ν) (byName (ν := ν) r) := ⟨fun _ _ _ h h' => IsTrans.trans (r := r) _ _ _ h h'⟩
  exact List.pairwise_insertionSort _ ms

/-- The sorted members do not depend on the order they were in. -/
theorem sortMembers_eq_of_perm [Std.Total r] [IsTrans σ r] [Std.Antisymm r] {ms ms' : List (σ × Json σ ν)}
    (hp : ms.Perm ms') (hnd : (ms.map Prod.fst).Nodup) : sortMembers r ms = sortMembers r ms' := by
  have hperm : (sortMembers r ms).Perm (sortMembers r ms') :=
    (sortMembers_perm r ms).trans (hp.trans (sortMembers_perm r ms').symm)
  refine hperm.eq_of_pairwise ?_ (sortMembers_pairwise r ms) (sortMembers_pairwise r ms')
  intro a b ha hb hab hba
  have ha' : a ∈ ms := (sortMembers_perm r ms).subset ha
  have hb' : b ∈ ms := hp.symm.subset ((sortMembers_perm r ms').subset hb)
  exact List.inj_on_of_nodup_map hnd ha' hb' (Std.Antisymm.antisymm _ _ hab hba)

end Sorting

/-! ## Equality up to the order of members -/

/-- The value with the members of every object sorted by name. -/
def sorted [LinearOrder σ] (v : Json σ ν) : Json σ ν := v.reorder (sortMembers (· ≤ ·))

/-- Equal up to the order of object members. -/
def Same [LinearOrder σ] (v w : Json σ ν) : Prop := v.sorted = w.sorted

section Same

variable [LinearOrder σ] {u v w : Json σ ν}

@[refl] theorem Same.refl (v : Json σ ν) : Same v v := rfl

@[symm] theorem Same.symm (h : Same v w) : Same w v := Eq.symm h

theorem Same.trans (h : Same u v) (h' : Same v w) : Same u w := Eq.trans h h'

theorem same_str {s : σ} : Same (.str s) v ↔ v = .str s := by
  cases v <;> simp [Same, sorted, reorder, eq_comm]

/-- Putting the members in another order, by their names, gives the same value. -/
theorem same_of_perm {f : List (σ × Json σ ν) → List (σ × Json σ ν)} (hperm : ∀ ms, (f ms).Perm ms)
    (hmap : ∀ φ ms, f (ms.map (Prod.map id φ)) = (f ms).map (Prod.map id φ)) {v : Json σ ν} (hv : v.Distinct) :
    Same (v.reorder f) v := by
  unfold Same sorted
  induction v using Json.ind with
  | null => rfl
  | bool b => rfl
  | num n => rfl
  | str s => rfl
  | arr items ih =>
    simp only [reorder, reorderItems_eq, List.map_map]
    exact congrArg Json.arr (List.map_congr_left fun v hm => ih v hm (hv.item v hm))
  | obj members ih =>
    simp only [reorder, reorderMembers_eq]
    rw [← hmap, List.map_map]
    have hvalues : members.map (Prod.map id (reorder (sortMembers (· ≤ ·))) ∘ Prod.map id (reorder f)) =
        members.map (Prod.map id (reorder (sortMembers (· ≤ ·)))) :=
      List.map_congr_left fun m hm => Prod.ext rfl (ih m hm (hv.member m hm))
    rw [hvalues]
    refine congrArg Json.obj (sortMembers_eq_of_perm _ (hperm _) ?_)
    rw [List.Perm.nodup_iff ((hperm _).map _), map_fst_map]
    exact hv.nodup

/-- Sorting the members by any total order gives the same value. -/
theorem same_reorder (r : σ → σ → Prop) [DecidableRel r] {v : Json σ ν} (hv : v.Distinct) :
    Same (v.reorder (sortMembers r)) v :=
  same_of_perm (sortMembers_perm r) (sortMembers_map r) hv

end Same

/-! ## One order after another -/

/-- Two passes over the members are one pass. -/
theorem reorder_reorder {f g : List (σ × Json σ ν) → List (σ × Json σ ν)}
    (hf : ∀ φ ms, f (ms.map (Prod.map id φ)) = (f ms).map (Prod.map id φ)) (v : Json σ ν) :
    (v.reorder f).reorder g = v.reorder (g ∘ f) := by
  induction v using Json.ind with
  | null => rfl
  | bool b => rfl
  | num n => rfl
  | str s => rfl
  | arr items ih =>
    simp only [reorder, reorderItems_eq, List.map_map]
    exact congrArg Json.arr (List.map_congr_left ih)
  | obj members ih =>
    simp only [reorder, reorderMembers_eq, Function.comp_apply]
    rw [← hf, List.map_map]
    have hvalues : members.map (Prod.map id (reorder g) ∘ Prod.map id (reorder f)) =
        members.map (Prod.map id (reorder (g ∘ f))) :=
      List.map_congr_left fun m hm => Prod.ext rfl (ih m hm)
    rw [hvalues]

/-- Two ways to order members that agree on distinct names. -/
theorem reorder_congr {f g : List (σ × Json σ ν) → List (σ × Json σ ν)}
    (h : ∀ ms, (ms.map Prod.fst).Nodup → f ms = g ms) {v : Json σ ν} (hv : v.Distinct) : v.reorder f = v.reorder g := by
  induction v using Json.ind with
  | null => rfl
  | bool b => rfl
  | num n => rfl
  | str s => rfl
  | arr items ih =>
    simp only [reorder, reorderItems_eq]
    exact congrArg Json.arr (List.map_congr_left fun v hm => ih v hm (hv.item v hm))
  | obj members ih =>
    simp only [reorder, reorderMembers_eq]
    have hvalues : members.map (Prod.map id (reorder f)) = members.map (Prod.map id (reorder g)) :=
      List.map_congr_left fun m hm => Prod.ext rfl (ih m hm (hv.member m hm))
    rw [hvalues, h _ (by rw [map_fst_map]; exact hv.nodup)]

theorem Distinct.reorder {f : List (σ × Json σ ν) → List (σ × Json σ ν)}
    (hnd : ∀ ms, (ms.map Prod.fst).Nodup → ((f ms).map Prod.fst).Nodup) (hsub : ∀ ms, f ms ⊆ ms) {v : Json σ ν}
    (hv : v.Distinct) : (v.reorder f).Distinct := by
  induction v using Json.ind with
  | null => exact .null
  | bool b => exact .bool b
  | num n => exact .num n
  | str s => exact .str s
  | arr items ih =>
    simp only [Json.reorder, reorderItems_eq]
    refine .arr fun w hw => ?_
    obtain ⟨v, hm, rfl⟩ := List.mem_map.1 hw
    exact ih v hm (hv.item v hm)
  | obj members ih =>
    simp only [Json.reorder, reorderMembers_eq]
    refine .obj (hnd _ (by rw [map_fst_map]; exact hv.nodup)) fun m hm => ?_
    obtain ⟨m', hm', rfl⟩ := List.mem_map.1 (hsub _ hm)
    exact ih m' hm' (hv.member m' hm')

theorem Distinct.sorted [LinearOrder σ] {v : Json σ ν} (hv : v.Distinct) : v.sorted.Distinct :=
  hv.reorder (fun ms hms => ((sortMembers_perm _ ms).map _).nodup_iff.2 hms) fun ms => (sortMembers_perm _ ms).subset

/-- Leaving members out by their names, before or after sorting them. -/
theorem sortMembers_filter [LinearOrder σ] (p : σ → Bool) {ms : List (σ × Json σ ν)} (hnd : (ms.map Prod.fst).Nodup) :
    (sortMembers (· ≤ ·) ms).filter (fun m => p m.1) = sortMembers (· ≤ ·) (ms.filter fun m => p m.1) := by
  have hperm : ((sortMembers (· ≤ ·) ms).filter fun m => p m.1).Perm (sortMembers (· ≤ ·) (ms.filter fun m => p m.1)) :=
    ((sortMembers_perm _ ms).filter _).trans (sortMembers_perm _ _).symm
  refine hperm.eq_of_pairwise ?_ ((sortMembers_pairwise _ ms).filter _) (sortMembers_pairwise _ _)
  intro a b ha hb hab hba
  have ha' : a ∈ ms := (sortMembers_perm _ ms).subset (List.mem_of_mem_filter ha)
  have hb' : b ∈ ms := List.mem_of_mem_filter ((sortMembers_perm _ _).subset hb)
  exact List.inj_on_of_nodup_map hnd ha' hb' (le_antisymm hab hba)

/-! ## The texts of a value -/

theorem allStringsItems_eq (p : σ → Bool) : ∀ vs : List (Json σ ν), allStringsItems p vs = vs.all (allStrings p)
  | [] => rfl
  | v :: vs => by rw [allStringsItems, allStringsItems_eq p vs, List.all_cons]

theorem allStringsMembers_eq (p : σ → Bool) :
    ∀ ms : List (σ × Json σ ν), allStringsMembers p ms = ms.all fun m => p m.1 && allStrings p m.2
  | [] => rfl
  | (k, v) :: ms => by rw [allStringsMembers, allStringsMembers_eq p ms, List.all_cons]

/-- The order of the members is no matter of their texts. -/
theorem allStrings_reorder {f : List (σ × Json σ ν) → List (σ × Json σ ν)} (hf : ∀ ms, (f ms).Perm ms) (p : σ → Bool)
    (v : Json σ ν) : (v.reorder f).allStrings p = v.allStrings p := by
  induction v using Json.ind with
  | null => rfl
  | bool b => rfl
  | num n => rfl
  | str s => rfl
  | arr items ih =>
    simp only [reorder, reorderItems_eq, allStrings, allStringsItems_eq, List.all_map]
    rw [Bool.eq_iff_iff, List.all_eq_true, List.all_eq_true]
    exact forall₂_congr fun v hv => by rw [Function.comp_apply, ih v hv]
  | obj members ih =>
    simp only [reorder, reorderMembers_eq, allStrings, allStringsMembers_eq]
    rw [(hf _).all_eq, List.all_map, Bool.eq_iff_iff, List.all_eq_true, List.all_eq_true]
    refine forall₂_congr fun m hm => ?_
    rw [Function.comp_apply, Prod.map_fst, Prod.map_snd, id_eq, ih m hm]

/-! ## Other numbers -/

mutual

/-- Puts a value in the place of every number. -/
def bindNum {ν' : Type} (φ : ν → Json σ ν') : Json σ ν → Json σ ν'
  | .null => .null
  | .bool b => .bool b
  | .num n => φ n
  | .str s => .str s
  | .arr items => .arr (bindNumItems φ items)
  | .obj members => .obj (bindNumMembers φ members)
termination_by structural v => v

def bindNumItems {ν' : Type} (φ : ν → Json σ ν') : List (Json σ ν) → List (Json σ ν')
  | [] => []
  | v :: vs => bindNum φ v :: bindNumItems φ vs
termination_by structural vs => vs

def bindNumMembers {ν' : Type} (φ : ν → Json σ ν') : List (σ × Json σ ν) → List (σ × Json σ ν')
  | [] => []
  | (k, v) :: ms => (k, bindNum φ v) :: bindNumMembers φ ms
termination_by structural ms => ms

end

section BindNum

variable {ν' : Type} {φ : ν → Json σ ν'}

theorem bindNumItems_eq : ∀ vs : List (Json σ ν), bindNumItems φ vs = vs.map (bindNum φ)
  | [] => rfl
  | v :: vs => by rw [bindNumItems, bindNumItems_eq vs, List.map_cons]

theorem bindNumMembers_eq : ∀ ms : List (σ × Json σ ν), bindNumMembers φ ms = ms.map (Prod.map id (bindNum φ))
  | [] => rfl
  | (k, v) :: ms => by rw [bindNumMembers, bindNumMembers_eq ms, List.map_cons]; rfl

/-- Replacing the numbers, before or after the members are reordered by their names. -/
theorem bindNum_reorder {f : List (σ × Json σ ν) → List (σ × Json σ ν)}
    {g : List (σ × Json σ ν') → List (σ × Json σ ν')}
    (hmap : ∀ ms, (f ms).map (Prod.map id (bindNum φ)) = g (ms.map (Prod.map id (bindNum φ))))
    (hnum : ∀ n, (φ n).reorder g = φ n) (v : Json σ ν) : (v.reorder f).bindNum φ = (v.bindNum φ).reorder g := by
  induction v using Json.ind with
  | null => rfl
  | bool b => rfl
  | num n => exact (hnum n).symm
  | str s => rfl
  | arr items ih =>
    simp only [reorder, reorderItems_eq, bindNum, bindNumItems_eq, List.map_map]
    exact congrArg Json.arr (List.map_congr_left ih)
  | obj members ih =>
    simp only [reorder, reorderMembers_eq, bindNum, bindNumMembers_eq]
    rw [hmap, List.map_map, List.map_map]
    have hvalues : members.map (Prod.map id (bindNum φ) ∘ Prod.map id (reorder f)) =
        members.map (Prod.map id (reorder g) ∘ Prod.map id (bindNum φ)) :=
      List.map_congr_left fun m hm => Prod.ext rfl (ih m hm)
    rw [hvalues]

theorem Distinct.bindNum {v : Json σ ν} (hφ : ∀ n, (φ n).Distinct) (hv : v.Distinct) : (v.bindNum φ).Distinct := by
  induction v using Json.ind with
  | null => exact .null
  | bool b => exact .bool b
  | num n => exact hφ n
  | str s => exact .str s
  | arr items ih =>
    simp only [Json.bindNum, bindNumItems_eq]
    refine .arr fun w hw => ?_
    obtain ⟨v, hm, rfl⟩ := List.mem_map.1 hw
    exact ih v hm (hv.item v hm)
  | obj members ih =>
    simp only [Json.bindNum, bindNumMembers_eq]
    refine .obj (by rw [map_fst_map]; exact hv.nodup) fun m hm => ?_
    obtain ⟨m', hm', rfl⟩ := List.mem_map.1 hm
    exact ih m' hm' (hv.member m' hm')

theorem bindNum_num (v : Json σ ν) : v.bindNum .num = v := by
  induction v using Json.ind with
  | null => rfl
  | bool b => rfl
  | num n => rfl
  | str s => rfl
  | arr items ih =>
    simp only [Json.bindNum, bindNumItems_eq]
    exact congrArg Json.arr ((List.map_congr_left ih).trans (List.map_id' items))
  | obj members ih =>
    simp only [Json.bindNum, bindNumMembers_eq]
    have hvalues : members.map (Prod.map id (Json.bindNum .num)) = members.map id :=
      List.map_congr_left fun m hm => Prod.ext rfl (ih m hm)
    rw [hvalues, List.map_id]

theorem bindNum_bindNum {ν'' : Type} (ψ : ν' → Json σ ν'') (v : Json σ ν) :
    (v.bindNum φ).bindNum ψ = v.bindNum fun n => (φ n).bindNum ψ := by
  induction v using Json.ind with
  | null => rfl
  | bool b => rfl
  | num n => rfl
  | str s => rfl
  | arr items ih =>
    simp only [Json.bindNum, bindNumItems_eq, List.map_map]
    exact congrArg Json.arr (List.map_congr_left ih)
  | obj members ih =>
    simp only [Json.bindNum, bindNumMembers_eq, List.map_map]
    have hvalues : members.map (Prod.map id (Json.bindNum ψ) ∘ Prod.map id (Json.bindNum φ)) =
        members.map (Prod.map id (Json.bindNum fun n => (φ n).bindNum ψ)) :=
      List.map_congr_left fun m hm => Prod.ext rfl (ih m hm)
    rw [hvalues]

end BindNum

/-! ## Members -/

theorem lookup_eq_some [DecidableEq σ] {ms : List (σ × Json σ ν)} (hnd : (ms.map Prod.fst).Nodup) {k : σ}
    {v : Json σ ν} : lookup k ms = some v ↔ (k, v) ∈ ms := by
  unfold lookup
  rw [Option.map_eq_some_iff]
  constructor
  · rintro ⟨⟨k', v'⟩, hf, rfl⟩
    obtain rfl : k' = k := by simpa using List.find?_some hf
    exact List.mem_of_find?_eq_some hf
  · intro hm
    cases hf : ms.find? fun m => m.1 = k with
    | none => simpa using List.find?_eq_none.1 hf _ hm
    | some m =>
      have hk : m.1 = k := by simpa using List.find?_some hf
      exact ⟨m, rfl, by rw [List.inj_on_of_nodup_map hnd (List.mem_of_find?_eq_some hf) hm hk]⟩

/-- A member is found whatever the order of the members. -/
theorem lookup_of_perm [DecidableEq σ] {ms ms' : List (σ × Json σ ν)} (hp : ms.Perm ms')
    (hnd : (ms.map Prod.fst).Nodup) (k : σ) : lookup k ms = lookup k ms' := by
  ext v
  rw [lookup_eq_some hnd, lookup_eq_some ((hp.map _).nodup hnd), hp.mem_iff]

theorem lookup_map (k : σ) [DecidableEq σ] (φ : Json σ ν → Json σ ν) (ms : List (σ × Json σ ν)) :
    lookup k (ms.map (Prod.map id φ)) = (lookup k ms).map φ := by
  unfold lookup
  rw [List.find?_map, Option.map_map, Option.map_map]
  rfl

/-- A member of an object with sorted members. -/
theorem lookup_sorted [LinearOrder σ] {ms : List (σ × Json σ ν)} (hnd : (ms.map Prod.fst).Nodup) (k : σ) :
    lookup k (sortMembers (· ≤ ·) (ms.map (Prod.map id sorted))) = (lookup k ms).map sorted := by
  rw [lookup_of_perm (sortMembers_perm _ _), lookup_map]
  rw [List.Perm.nodup_iff ((sortMembers_perm _ _).map _), map_fst_map]; exact hnd

/-- Equal objects have equal members. -/
theorem Same.lookup [LinearOrder σ] {ms ms' : List (σ × Json σ ν)} (h : Same (.obj ms) (.obj ms'))
    (hnd : (ms.map Prod.fst).Nodup) (hnd' : (ms'.map Prod.fst).Nodup) (k : σ) :
    (lookup k ms).map sorted = (lookup k ms').map sorted := by
  rw [← lookup_sorted hnd, ← lookup_sorted hnd']
  simp only [Same, sorted, reorder, reorderMembers_eq, Json.obj.injEq] at h
  exact congrArg (Json.lookup k) h

/-! ## The `jsonb` type of PostgreSQL -/

/-- `jsonb` keeps the members of an object ordered by the length of their names in bytes, and names of
one length by their bytes. -/
def jsonbLe (a b : String) : Prop := a.utf8ByteSize < b.utf8ByteSize ∨ a.utf8ByteSize = b.utf8ByteSize ∧ a ≤ b

instance : DecidableRel jsonbLe := fun a b => by unfold jsonbLe; infer_instance

/-- What a `jsonb` column returns for the value `v` stored in it. -/
def jsonb (v : Json String) : Json String := v.reorder (sortMembers jsonbLe)

/-- The member `k` of an object. -/
def member (k : String) : Json String → Option (Json String)
  | .obj members => lookup k members
  | _ => none

theorem member_jsonb {members : List (String × Json String)} (hnd : (members.map Prod.fst).Nodup) (k : String) :
    (Json.obj members).jsonb.member k = (lookup k members).map jsonb := by
  simp only [jsonb, reorder, member, reorderMembers_eq]
  rw [lookup_of_perm (sortMembers_perm _ _), lookup_map]
  · rfl
  · rw [List.Perm.nodup_iff ((sortMembers_perm _ _).map _), map_fst_map]; exact hnd

example : (obj [("amount", num (Number.ofInt 1)), ("id", obj [("b", null), ("a", null)])] : Json String).jsonb =
    obj [("id", obj [("a", null), ("b", null)]), ("amount", num (Number.ofInt 1))] := by rfl

theorem jsonbLe_total (a b : String) : jsonbLe a b ∨ jsonbLe b a := by
  unfold jsonbLe
  rcases Nat.lt_trichotomy a.utf8ByteSize b.utf8ByteSize with h | h | h
  · exact .inl (.inl h)
  · rcases le_total a b with hab | hab
    · exact .inl (.inr ⟨h, hab⟩)
    · exact .inr (.inr ⟨h.symm, hab⟩)
  · exact .inr (.inl h)

theorem jsonbLe_trans {a b c : String} (h : jsonbLe a b) (h' : jsonbLe b c) : jsonbLe a c := by
  rcases h with h | ⟨h, hab⟩ <;> rcases h' with h' | ⟨h', hbc⟩
  · exact .inl (h.trans h')
  · exact .inl (h' ▸ h)
  · exact .inl (h ▸ h')
  · exact .inr ⟨h.trans h', hab.trans hbc⟩

/-- A value that was stored is stored as it is. -/
theorem jsonb_jsonb (v : Json String) : v.jsonb.jsonb = v.jsonb := by
  have : Std.Total jsonbLe := ⟨jsonbLe_total⟩
  have : IsTrans String jsonbLe := ⟨fun _ _ _ => jsonbLe_trans⟩
  have hsorted : sortMembers (ν := Number) jsonbLe ∘ sortMembers jsonbLe = sortMembers jsonbLe :=
    funext fun ms => (sortMembers_pairwise jsonbLe ms).insertionSort_eq
  rw [jsonb, jsonb, reorder_reorder (sortMembers_map jsonbLe), hsorted]

theorem allStrings_jsonb (p : String → Bool) (v : Json String) : v.jsonb.allStrings p = v.allStrings p :=
  allStrings_reorder (sortMembers_perm jsonbLe) p v

theorem same_jsonb {v : Json String} (hv : v.Distinct) : Same v.jsonb v := same_reorder jsonbLe hv

end Json

end PaymentOrchestration.Lib
