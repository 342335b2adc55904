/-
`buildRequestHash` on every value that `JSON.parse` returns: what `canonicalize` and `JSON.stringify` leave out of a
value, and that nothing else is lost. A member named `__proto__` is left out, since the copy is built by assignment, and
an infinite number is written as null.
-/
import PaymentOrchestration.Replay

namespace PaymentOrchestration

open Lib IdempotencyService

/-- A value that `JSON.parse` returns: the members of an object have distinct names, and a number may be infinite. -/
structure Parsed where
  value : Json JsString JsNumber
  distinct : value.Distinct

namespace Parsed

/-! ## The hash of a request -/

/-- What `JSON.stringify` writes for a number. -/
def written : JsNumber → Json JsString
  | .finite n => .num n
  | .infinite _ => .null

/-- `JSON.stringify`. -/
def stringify (value : Json JsString JsNumber) : JsString := Json.stringify (value.bindNum written)

/-- The text that is hashed. -/
def canonicalBody (body : Parsed) : JsString := stringify (canonicalize body.value)

def buildRequestHash (cfg : Config) (body : Parsed) : String := (cfg.sha256 body.canonicalBody).hex

/-! ## What is left out -/

def proto : JsString := JsString.units "__proto__".toList

section Members

variable {ν ν' : Type}

def withoutProto (members : List (JsString × Json JsString ν)) : List (JsString × Json JsString ν) :=
  members.filter fun m => m.1 ≠ proto

theorem withoutProto_map (φ : Json JsString ν → Json JsString ν') (ms : List (JsString × Json JsString ν)) :
    withoutProto (ms.map (Prod.map id φ)) = (withoutProto ms).map (Prod.map id φ) :=
  List.filter_map

theorem ownOrder_map (φ : Json JsString ν → Json JsString ν') (ms : List (JsString × Json JsString ν)) :
    ownOrder (ms.map (Prod.map id φ)) = (ownOrder ms).map (Prod.map id φ) := by
  unfold ownOrder
  rw [List.map_append, List.filter_map, List.filter_map]
  congr 1
  exact (List.map_insertionSort _ _ (Prod.map id φ) _ fun _ _ _ _ => Iff.rfl).symm

/-- The members are enumerated in another order, and no member is lost. -/
theorem ownOrder_perm (ms : List (JsString × Json JsString ν)) : (ownOrder ms).Perm ms := by
  unfold ownOrder
  have hsplit : ∀ m : JsString × Json JsString ν, (arrayIndex? m.1).isNone = !(arrayIndex? m.1).isSome := fun m => by
    cases arrayIndex? m.1 <;> rfl
  simp only [hsplit]
  exact ((List.perm_insertionSort _ _).append_right _).trans (List.filter_append_perm _ ms)

theorem copySorted_eq (ms : List (JsString × Json JsString ν)) :
    copySorted ms = ownOrder (withoutProto (Json.sortMembers (· ≤ ·) ms)) :=
  rfl

theorem copySorted_map (φ : Json JsString ν → Json JsString ν') (ms : List (JsString × Json JsString ν)) :
    copySorted (ms.map (Prod.map id φ)) = (copySorted ms).map (Prod.map id φ) := by
  rw [copySorted_eq, copySorted_eq, Json.sortMembers_map, withoutProto_map, ownOrder_map]

theorem withoutProto_sorted {ms : List (JsString × Json JsString ν)} (hnd : (ms.map Prod.fst).Nodup) :
    withoutProto (Json.sortMembers (· ≤ ·) ms) = Json.sortMembers (· ≤ ·) (withoutProto ms) :=
  Json.sortMembers_filter (fun k => k ≠ proto) hnd

variable {v w : Json JsString ν}

theorem distinct_withoutProto (hv : v.Distinct) : (v.reorder withoutProto).Distinct :=
  hv.reorder (fun _ hms => hms.sublist (List.filter_sublist.map _)) List.filter_subset_self

/-- A value without its `__proto__` members, sorted. -/
theorem sorted_withoutProto (hv : v.Distinct) : (v.reorder withoutProto).sorted = v.sorted.reorder withoutProto := by
  unfold Json.sorted
  rw [Json.reorder_reorder withoutProto_map, Json.reorder_reorder (Json.sortMembers_map _)]
  exact Json.reorder_congr (fun _ hms => (withoutProto_sorted hms).symm) hv

/-- What `canonicalize` does: it leaves out the `__proto__` members and sorts the others, up to the own order. -/
theorem canonicalize_eq (hv : v.Distinct) : canonicalize v = (v.reorder withoutProto).sorted.reorder ownOrder := by
  rw [sorted_withoutProto hv]
  unfold canonicalize Json.sorted
  rw [Json.reorder_reorder withoutProto_map, Json.reorder_reorder (Json.sortMembers_map _)]
  rfl

theorem same_canonicalize (hv : v.Distinct) : Json.Same (canonicalize v) (v.reorder withoutProto) := by
  rw [canonicalize_eq hv]
  have hd := distinct_withoutProto hv
  exact (Json.same_of_perm ownOrder_perm ownOrder_map hd.sorted).trans (Json.same_reorder _ hd)

/-- Two values get one canonical form exactly if they are the same without their `__proto__` members. -/
theorem canonicalize_eq_iff (hv : v.Distinct) (hw : w.Distinct) :
    canonicalize v = canonicalize w ↔ Json.Same (v.reorder withoutProto) (w.reorder withoutProto) := by
  constructor
  · intro h
    have hcanonical := same_canonicalize hv
    rw [h] at hcanonical
    exact hcanonical.symm.trans (same_canonicalize hw)
  · intro h
    rw [canonicalize_eq hv, canonicalize_eq hw, h]

end Members

/-- A value without its `__proto__` members, and with null for its infinite numbers. -/
def erased (body : Parsed) : Json JsString := (body.value.bindNum written).reorder withoutProto

/-! ## When the hash is exact -/

section Exact

variable {v w : Parsed}

theorem distinct_written (n : JsNumber) : (written n).Distinct := by
  cases n with
  | finite n => exact .num n
  | infinite neg => exact .null

theorem reorder_written (f : List (JsString × Json JsString) → List (JsString × Json JsString)) (n : JsNumber) :
    (written n).reorder f = written n := by
  cases n with
  | finite n => rfl
  | infinite neg => rfl

/-- The infinite numbers may be replaced before the members are put in order. -/
theorem canonicalBody_eq (v : Parsed) : v.canonicalBody = Json.stringify (canonicalize (v.value.bindNum written)) :=
  congrArg Json.stringify (Json.bindNum_reorder (fun ms => (copySorted_map _ ms).symm) (reorder_written _) v.value)

/-- Two values get one text exactly if they are the same once erased. -/
theorem canonicalBody_eq_iff : v.canonicalBody = w.canonicalBody ↔ Json.Same v.erased w.erased := by
  have hv := v.distinct.bindNum distinct_written
  have hw := w.distinct.bindNum distinct_written
  rw [canonicalBody_eq, canonicalBody_eq, ← show _ ↔ Json.Same v.erased w.erased from canonicalize_eq_iff hv hw]
  constructor
  · exact Json.stringify_inj
  · exact fun h => congrArg Json.stringify h

/-- What is erased does not depend on the order of the members. -/
theorem same_erased (h : Json.Same v.value w.value) : Json.Same v.erased w.erased := by
  have hsorted : ∀ u : Parsed, u.erased.sorted = (u.value.sorted.bindNum written).reorder withoutProto := by
    intro u
    have hu := u.distinct.bindNum distinct_written
    have hsort : (u.value.bindNum written).sorted = u.value.sorted.bindNum written :=
      (Json.bindNum_reorder (fun ms => (Json.sortMembers_map _ _ ms).symm) (reorder_written _) u.value).symm
    unfold erased
    rw [sorted_withoutProto hu, hsort]
  unfold Json.Same
  rw [hsorted, hsorted, show v.value.sorted = w.value.sorted from h]

/-- On the numbers a request of the service holds, this is the hash of the service. -/
theorem buildRequestHash_finite (cfg : Config) (body : Json JsString) (hbody : body.Distinct) :
    buildRequestHash cfg ⟨body.bindNum fun n => .num (.finite n), hbody.bindNum fun _ => .num _⟩ =
      IdempotencyService.buildRequestHash cfg body := by
  have hnumbers : (body.bindNum fun n => .num (JsNumber.finite n)).bindNum written = body := by
    rw [Json.bindNum_bindNum]
    exact Json.bindNum_num body
  unfold buildRequestHash IdempotencyService.buildRequestHash
  rw [canonicalBody_eq, hnumbers]

/-- Two texts that are different have different hashes. -/
def CollisionFree (cfg : Config) (v w : Parsed) : Prop :=
  cfg.sha256 v.canonicalBody = cfg.sha256 w.canonicalBody → v.canonicalBody = w.canonicalBody

/-- The values are the same, or they still differ without their `__proto__` members and with null for
infinite numbers. -/
def Told (v w : Parsed) : Prop := Json.Same v.value w.value ∨ ¬ Json.Same v.erased w.erased

/-- A value with nothing to leave out. -/
def Plain (v : Parsed) : Prop :=
  ∃ u : Json JsString, v.value = u.bindNum (fun n => .num (.finite n)) ∧ u.reorder withoutProto = u

/-- Values without `__proto__` members and infinite numbers are told apart. -/
theorem told_of_plain (hv : Plain v) (hw : Plain w) : Told v w := by
  have herased : ∀ {x : Parsed} {u : Json JsString}, x.value = u.bindNum (fun n => .num (.finite n)) →
      u.reorder withoutProto = u → x.erased = u := by
    intro x u hx hu
    unfold erased
    rw [hx, Json.bindNum_bindNum]
    exact (congrArg (Json.reorder withoutProto) (Json.bindNum_num u)).trans hu
  have hsorted : ∀ u : Json JsString, (u.bindNum fun n => .num (JsNumber.finite n)).sorted =
      u.sorted.bindNum fun n => .num (JsNumber.finite n) := fun u =>
    (Json.bindNum_reorder (fun ms => (Json.sortMembers_map _ _ ms).symm) (fun _ => rfl) u).symm
  obtain ⟨u, hvu, hu⟩ := hv
  obtain ⟨u', hwu, hu'⟩ := hw
  by_cases hs : Json.Same u u'
  · refine .inl ?_
    unfold Json.Same
    rw [hvu, hwu, hsorted, hsorted, show u.sorted = u'.sorted from hs]
  · refine .inr ?_
    rw [herased hvu hu, herased hwu hu']
    exact hs

/-- The hashed text, and with a collision-free hash the hash, tell two values apart exactly if they are told apart by
what is not left out. -/
theorem canonicalize_exact (cfg : Config) (v w : Parsed) :
    ((v.canonicalBody = w.canonicalBody ↔ Json.Same v.value w.value) ↔ Told v w) ∧
    (CollisionFree cfg v w →
      ((buildRequestHash cfg v = buildRequestHash cfg w ↔ Json.Same v.value w.value) ↔ Told v w)) := by
  have htext : (v.canonicalBody = w.canonicalBody ↔ Json.Same v.value w.value) ↔ Told v w := by
    rw [canonicalBody_eq_iff]
    constructor
    · intro h
      by_cases hs : Json.Same v.erased w.erased
      · exact .inl (h.1 hs)
      · exact .inr hs
    · rintro (h | h)
      · exact ⟨fun _ => h, fun _ => same_erased h⟩
      · exact ⟨fun hs => absurd hs h, same_erased⟩
  refine ⟨htext, fun hfree => ?_⟩
  have hhash : buildRequestHash cfg v = buildRequestHash cfg w ↔ v.canonicalBody = w.canonicalBody := by
    constructor
    · exact fun h => hfree (Digest.hex_inj h)
    · intro h
      unfold buildRequestHash
      rw [h]
  rw [hhash]
  exact htext

end Exact

namespace Sample

/-- An object of two members. -/
def pair (k l : String) (m n : Int) (hne : JsString.utf16 k ≠ JsString.utf16 l) : Parsed where
  value := .obj [(JsString.utf16 k, .num (.finite (Number.ofInt m))),
    (JsString.utf16 l, .num (.finite (Number.ofInt n)))]
  distinct := .obj (by simpa using hne) (by
    intro m hm
    simp only [List.mem_cons, List.not_mem_nil, or_false] at hm
    rcases hm with rfl | rfl
    · exact .num _
    · exact .num _)

def ab : Parsed := pair "a" "b" 2 1 (by decide)
def ba : Parsed := pair "b" "a" 1 2 (by decide)

def empty : Parsed := ⟨.obj [], .obj List.nodup_nil nofun⟩

def protoOnly : Parsed where
  value := .obj [(proto, .num (.finite (Number.ofInt 1)))]
  distinct := .obj (List.nodup_singleton _) (by
    intro m hm
    cases List.mem_singleton.1 hm
    exact .num _)

end Sample

/-- Two members in two orders. -/
theorem canonicalize_exact_pair : Sample.ab.canonicalBody = Sample.ba.canonicalBody ∧
    ((buildRequestHash PaymentOrchestration.Sample.cfg Sample.ab =
      buildRequestHash PaymentOrchestration.Sample.cfg Sample.ba ↔
      Json.Same Sample.ab.value Sample.ba.value) ↔ Told Sample.ab Sample.ba) := by
  have htext : Sample.ab.canonicalBody = Sample.ba.canonicalBody := by decide +kernel
  exact ⟨htext, (canonicalize_exact PaymentOrchestration.Sample.cfg Sample.ab Sample.ba).2 fun _ => htext⟩

/-- Not all values are told apart: an object with the only member `__proto__` is hashed as an empty object. -/
theorem not_canonicalize_exact :
    ¬ ∀ v w : Parsed, v.canonicalBody = w.canonicalBody ↔ Json.Same v.value w.value := by
  intro h
  have htext : Sample.protoOnly.canonicalBody = Sample.empty.canonicalBody := by decide +kernel
  have hsame := (h Sample.protoOnly Sample.empty).1 htext
  simp only [Json.Same, Json.sorted, Sample.protoOnly, Sample.empty, Json.reorder, Json.reorderMembers] at hsame
  cases hsame

end Parsed

end PaymentOrchestration
