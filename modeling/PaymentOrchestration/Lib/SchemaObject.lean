/-
Schema objects of OpenAPI 3.0 as they describe responses: `type`, `format`, `enum`, `nullable`, `properties`
and `required`, with their standard meaning. `nullable` adds null to the type that it stands beside; without
a type every value is valid. Whether a value is valid does not depend on the order of the members of its
objects.
-/
import PaymentOrchestration.Lib.JsonSchema
import PaymentOrchestration.Lib.Stringify
import PaymentOrchestration.Lib.Joi

namespace PaymentOrchestration.Lib

open JsString

/-! ## Formats are ASCII -/

theorem Uuid.uuidOut_ascii (u : Uuid) : ∀ c ∈ u.uuidOut.toList, c.toNat < 128 := by
  intro c hc
  rcases uuidOut_chars u c hc with rfl | ⟨d, rfl⟩
  · decide
  · clear hc
    revert d
    decide

theorem Date.padded_ascii : ∀ k n, ∀ c ∈ padded k n, c.toNat < 128
  | 0, _, _, h => by cases h
  | k + 1, n, c, h => by
    have hdigit : ∀ d, (Number.digitChar d).toNat < 128 := by decide
    rcases List.mem_append.1 h with h | h
    · exact padded_ascii k _ c h
    · rw [List.mem_singleton.1 h]; exact hdigit _

theorem Date.toISOString_ascii (t : Millis) : ∀ c ∈ (toISOString t).toList, c.toNat < 128 := by
  have hyear : ∀ y, ∀ c ∈ yearText y, c.toNat < 128 := by
    intro y c hc
    unfold yearText at hc
    split at hc
    · exact padded_ascii _ _ c hc
    · rcases List.mem_cons.1 hc with rfl | hc
      · split <;> decide
      · exact padded_ascii _ _ c hc
  rw [toISOString, String.toList_ofList, isoChars]
  simp only [List.forall_mem_append, List.forall_mem_cons]
  refine ⟨⟨⟨⟨⟨⟨⟨hyear _, ?_, padded_ascii _ _⟩, ?_, padded_ascii _ _⟩, ?_, padded_ascii _ _⟩, ?_, padded_ascii _ _⟩, ?_,
    padded_ascii _ _⟩, ?_, padded_ascii _ _⟩, ?_⟩ <;> simp

/-! ## Schema objects -/

/-- A schema object; `any` has no type. An `enum` that is absent is empty. -/
inductive SchemaObject where
  | any
  | string (enum : List String) (format : Option Format) (nullable : Bool)
  | integer
  | object (required : List String) (properties : List (String × SchemaObject))

namespace SchemaObject

mutual

/-- The value satisfies the schema. -/
def valid : SchemaObject → Json JsString → Bool
  | .any, _ => true
  | .string enum format nullable, v =>
    match v with
    | .null => nullable && enum.isEmpty
    | .str s => (enum.isEmpty || enum.any fun t => s = utf16 t) && format.all fun f => s.ascii?.any f.holds
    | _ => false
  | .integer, v =>
    match v with
    | .num n => n.int?.isSome
    | _ => false
  | .object required properties, v =>
    match v with
    | .obj members => required.all (fun k => (Json.lookup (utf16 k) members).isSome) && validMembers properties members
    | _ => false
termination_by structural s => s

def validMembers : List (String × SchemaObject) → List (JsString × Json JsString) → Bool
  | [], _ => true
  | (k, s) :: properties, members => (Json.lookup (utf16 k) members).all (valid s) && validMembers properties members
termination_by structural properties => properties

end

section Valid

variable {required : List String} {properties : List (String × SchemaObject)} {enum : List String}
  {format : Option Format} {nullable : Bool}

theorem validMembers_iff {members : List (JsString × Json JsString)} : validMembers properties members = true ↔
    ∀ p ∈ properties, ∀ v, Json.lookup (utf16 p.1) members = some v → p.2.valid v = true := by
  induction properties with
  | nil => simp [validMembers]
  | cons p ps ih =>
    obtain ⟨k, s⟩ := p
    simp [validMembers, ih, Option.all_eq_true]

theorem lookup_inUtf16 (k : String) (members : List (String × Json String)) :
    Json.lookup (utf16 k) (Json.membersInUtf16 members) = (Json.lookup k members).map Json.inUtf16 := by
  induction members with
  | nil => rfl
  | cons m members ih =>
    obtain ⟨k', v⟩ := m
    simp only [Json.membersInUtf16, Json.lookup, List.find?_cons] at ih ⊢
    by_cases h : k' = k
    · subst h; simp
    · have hne : utf16 k' ≠ utf16 k := fun heq => h (utf16_inj heq)
      simp only [h, hne, decide_false]
      exact ih

/-- An object is valid when it has the required members and those that it has are valid. -/
theorem valid_object {members : List (String × Json String)} :
    (object required properties).valid (Json.inUtf16 (.obj members)) = true ↔
      (∀ k ∈ required, (Json.lookup k members).isSome = true) ∧
      ∀ p ∈ properties, ∀ v, Json.lookup p.1 members = some v → p.2.valid v.inUtf16 = true := by
  simp only [Json.inUtf16, valid, Bool.and_eq_true, List.all_eq_true, validMembers_iff,
    lookup_inUtf16, Option.isSome_map, Option.map_eq_some_iff]
  simp

/-- A text that is none of an `enum`. -/
theorem valid_text {s : String} : (string [] none nullable).valid (.str (utf16 s)) = true := rfl

theorem valid_enum {s : String} (h : s ∈ enum) : (string enum none nullable).valid (.str (utf16 s)) = true := by
  simp only [valid, Bool.and_eq_true, Bool.or_eq_true, List.any_eq_true]
  exact ⟨.inr ⟨s, h, decide_eq_true rfl⟩, rfl⟩

theorem valid_uuid (u : Uuid) : (string [] (some .uuid) nullable).valid (.str (utf16 u.uuidOut)) = true := by
  have hascii := ascii?_eq_some.2 ⟨rfl, Uuid.uuidOut_ascii u⟩
  simp only [valid, List.isEmpty_nil, Bool.true_or, Bool.true_and, Option.all_some, hascii, Option.any_some]
  exact Uuid.isCanonical_uuidOut u

theorem valid_dateTime {t : Millis} (h : Date.InRange t) :
    (string [] (some .dateTime) nullable).valid (.str (utf16 (Date.toISOString t))) = true := by
  have hascii := ascii?_eq_some.2 ⟨rfl, Date.toISOString_ascii t⟩
  simp only [valid, List.isEmpty_nil, Bool.true_or, Bool.true_and, Option.all_some, hascii, Option.any_some]
  exact Date.isDateTime_toISOString h

theorem valid_integer (n : Int) : integer.valid (.num (Number.ofInt n)) = true := by
  rw [valid, Number.int?_ofInt]
  rfl

end Valid

/-! ## The order of members -/

/-- The names of an object that is equal to one with distinct names are distinct. -/
theorem nodup_of_same {ms ms' : List (String × Json String)} (h : Json.Same (.obj ms) (.obj ms'))
    (hnd : (ms'.map Prod.fst).Nodup) : (ms.map Prod.fst).Nodup := by
  simp only [Json.Same, Json.sorted, Json.reorder, Json.reorderMembers_eq, Json.obj.injEq] at h
  have hperm := ((Json.sortMembers_perm (· ≤ ·) (ms.map (Prod.map id Json.sorted))).symm.trans (.of_eq h)).trans
    (Json.sortMembers_perm (· ≤ ·) (ms'.map (Prod.map id Json.sorted)))
  have hnames := hperm.map Prod.fst
  rw [Json.map_fst_map, Json.map_fst_map] at hnames
  exact hnames.nodup_iff.2 hnd

/-- What equal objects have under a name is equal. -/
theorem lookup_of_same {ms ms' : List (String × Json String)} (h : Json.Same (.obj ms) (.obj ms'))
    (hnd : (ms'.map Prod.fst).Nodup) (k : String) : Option.Rel Json.Same (Json.lookup k ms) (Json.lookup k ms') := by
  have hlookup := h.lookup (nodup_of_same h hnd) hnd k
  generalize Json.lookup k ms = v, Json.lookup k ms' = w at hlookup ⊢
  cases v <;> cases w <;> simp only [Option.map_none, Option.map_some, reduceCtorEq] at hlookup
  · exact .none
  · exact .some (Option.some.inj hlookup)

/-- A value that is equal to one without members and items is the same. -/
theorem eq_of_same {v w : Json String} (h : Json.Same v w) (harr : ∀ vs, w ≠ .arr vs) (hobj : ∀ ms, w ≠ .obj ms) :
    v = w := by
  cases w with
  | arr vs => exact absurd rfl (harr vs)
  | obj ms => exact absurd rfl (hobj ms)
  | _ => cases v <;> simp_all [Json.Same, Json.sorted, Json.reorder]

theorem obj_of_same {v : Json String} {ms' : List (String × Json String)} (h : Json.Same v (.obj ms')) :
    ∃ ms, v = .obj ms := by
  cases v with
  | obj ms => exact ⟨ms, rfl⟩
  | _ => simp [Json.Same, Json.sorted, Json.reorder] at h

mutual

/-- A value that is equal to a valid one up to the order of members is valid. -/
theorem valid_of_same : ∀ {s : SchemaObject} {v w : Json String}, Json.Same v w → w.Distinct →
    s.valid w.inUtf16 = true → s.valid v.inUtf16 = true
  | .any, _, _, _, _, _ => rfl
  | .string _ _ _, v, w, h, _, hw => by
    rw [eq_of_same h]
    · exact hw
    · rintro vs rfl; cases hw
    · rintro ms rfl; cases hw
  | .integer, v, w, h, _, hw => by
    rw [eq_of_same h]
    · exact hw
    · rintro vs rfl; cases hw
    · rintro ms rfl; cases hw
  | .object required properties, v, .obj ms', h, hd, hw => by
    obtain ⟨ms, rfl⟩ := obj_of_same h
    obtain ⟨hrequired, hproperties⟩ := valid_object.1 hw
    refine valid_object.2 ⟨fun k hk => ?_, members_of_same h hd hproperties⟩
    have hrel := lookup_of_same h hd.nodup k
    have hsome := hrequired k hk
    generalize Json.lookup k ms = x, Json.lookup k ms' = y at hrel hsome
    cases hrel with
    | none => exact hsome
    | some => rfl
  | .object _ _, _, .null, _, _, hw => by cases hw
  | .object _ _, _, .bool _, _, _, hw => by cases hw
  | .object _ _, _, .num _, _, _, hw => by cases hw
  | .object _ _, _, .str _, _, _, hw => by cases hw
  | .object _ _, _, .arr _, _, _, hw => by cases hw

theorem members_of_same : ∀ {properties : List (String × SchemaObject)} {ms ms' : List (String × Json String)},
    Json.Same (.obj ms) (.obj ms') → (Json.obj ms').Distinct →
    (∀ p ∈ properties, ∀ v, Json.lookup p.1 ms' = some v → p.2.valid v.inUtf16 = true) →
    ∀ p ∈ properties, ∀ v, Json.lookup p.1 ms = some v → p.2.valid v.inUtf16 = true
  | [], _, _, _, _, _, _, hp, _, _ => by cases hp
  | (k, s) :: properties, ms, ms', h, hd, hall, p, hp, v, hv => by
    obtain ⟨hk, hall⟩ := List.forall_mem_cons.1 hall
    rcases List.mem_cons.1 hp with rfl | hp
    · have hrel := lookup_of_same h hd.nodup k
      rw [hv] at hrel
      generalize hy : Json.lookup k ms' = y at hrel
      cases hrel with | @some _ w hsame =>
      have hmem := (Json.lookup_eq_some hd.nodup).1 hy
      exact valid_of_same hsame (hd.member _ hmem) (hk w hy)
    · exact members_of_same h hd hall p hp v hv

end

end SchemaObject

end PaymentOrchestration.Lib
