/-
JSON Schema as far as contracts of events use it: the keywords of the 2020-12 dialect that constrain types,
strings, numbers and members, and their combinations. A schema object is the conjunction of its keywords.
Lengths count Unicode characters; `const` and `enum` compare scalars.
-/
import PaymentOrchestration.Lib.Json
import PaymentOrchestration.Lib.Uuid
import PaymentOrchestration.Lib.Date

namespace PaymentOrchestration.Lib

/-! ## Integers among the numbers -/

/-- The integer a number is, if it is one. -/
def Number.int? (x : Number) : Option Int :=
  if (x.digits.length : Int) ≤ x.point then
    let n := natOf x.digits * 10 ^ (x.point - x.digits.length).toNat
    some (if x.neg then -n else n)
  else none

theorem Number.natOf_zeros (ds : List (Fin 10)) (k : Nat) : natOf (ds ++ List.replicate k 0) = natOf ds * 10 ^ k := by
  induction k with
  | zero => simp
  | succ k ih =>
    rw [List.replicate_succ', ← List.append_assoc]
    simp only [natOf, List.foldl_append, List.foldl_cons, List.foldl_nil] at ih ⊢
    rw [ih, Nat.pow_succ]
    simp only [Fin.val_zero, Nat.add_zero]
    ring

theorem Number.int?_ofInt (z : Int) : (ofInt z).int? = some z := by
  have hhead := natDigits_head z.natAbs
  obtain ⟨k, hk⟩ := stripTrailing_append (natDigits z.natAbs)
  have hlen : (stripTrailing (natDigits z.natAbs)).length + k = (natDigits z.natAbs).length := by
    rw [← List.length_replicate (n := k) (a := (0 : Fin 10)), ← List.length_append, hk]
  have hval : natOf (stripTrailing (natDigits z.natAbs)) * 10 ^ k = z.natAbs := by
    rw [← natOf_zeros, hk, natOf_natDigits]
  by_cases h0 : z = 0
  · subst h0; decide
  have hne : (stripTrailing (natDigits z.natAbs)).isEmpty = false := by
    rw [← Bool.not_eq_true, List.isEmpty_iff]
    intro h
    rw [h] at hval
    simp [natOf] at hval
    omega
  simp only [int?, ofInt, normalize, stripLeading_of_head hhead, hne, Bool.false_eq_true, if_false,
    Bool.not_false, Bool.and_true]
  rw [if_pos (by omega)]
  have hexp : (((natDigits z.natAbs).length : Int) - (stripTrailing (natDigits z.natAbs)).length).toNat = k := by omega
  rw [hexp, hval]
  by_cases hneg : z < 0
  · simp only [hneg, decide_true, if_true, Option.some.injEq]; omega
  · simp only [hneg, decide_false, Bool.false_eq_true, if_false, Option.some.injEq]; omega

/-- A number that is an integer is written as that integer. -/
theorem Number.ofInt_of_int? {x : Number} {z : Int} (h : x.int? = some z) : x = ofInt z := by
  unfold int? at h
  split at h
  swap
  · cases h
  rename_i hpoint
  obtain rfl := Option.some.inj h
  cases hds : x.digits with
  | nil =>
    obtain ⟨hneg, hp⟩ := x.zero hds
    refine (ext ?_ ?_ ?_ : x = ofInt 0).trans ?_
    · rw [hneg]; rfl
    · rw [hds]; rfl
    · rw [hp]; rfl
    · congr 1
      simp [natOf]
  | cons d ds =>
    have hne : x.digits ≠ [] := by rw [hds]; exact List.cons_ne_nil d ds
    have hhead : (x.digits ++ List.replicate (x.point - x.digits.length).toNat 0).head? ≠ some 0 := by
      rw [hds, List.cons_append]
      have := x.head_ne
      rw [hds] at this
      exact this
    rw [← hds]
    generalize hk : (x.point - x.digits.length).toNat = k at hhead
    have hdigits : natDigits (natOf x.digits * 10 ^ k) = x.digits ++ List.replicate k 0 := by
      rw [← natOf_zeros, natDigits_natOf hhead]
    have hlen : ((x.digits ++ List.replicate k 0).length : Int) = x.point := by
      rw [List.length_append, List.length_replicate]; omega
    have hpos : 0 < natOf x.digits * 10 ^ k := by
      refine Nat.pos_of_ne_zero fun h0 => ?_
      rw [h0] at hdigits
      have hnil : natDigits 0 = [] := by decide
      rw [hnil] at hdigits
      exact hne (List.append_eq_nil_iff.1 hdigits.symm).1
    generalize natOf x.digits * 10 ^ k = n at hdigits hpos
    have hneg : decide ((if x.neg = true then -(n : Int) else n) < 0) = x.neg := by
      cases x.neg
      · simp
      · simpa using hpos
    have habs : (if x.neg = true then -(n : Int) else n).natAbs = n := by
      cases x.neg <;> simp
    rw [ofInt, hneg, habs, hdigits, hlen, normalize_trailing _ _ x.head_ne hne, normalize_self]

/-! ## Schemas -/

/-- The types a `type` keyword names. -/
inductive JsonType
  | object
  | array
  | string
  | number
  | integer
  | boolean
  | null
deriving DecidableEq

def JsonType.holds : JsonType → Json String → Bool
  | .object, .obj _ => true
  | .array, .arr _ => true
  | .string, .str _ => true
  | .number, .num _ => true
  | .integer, .num n => n.int?.isSome
  | .boolean, .bool _ => true
  | .null, .null => true
  | _, _ => false

/-- The formats a `format` keyword names. -/
inductive Format
  | uuid
  | dateTime
deriving DecidableEq

/-- Groups of hexadecimal digits, separated by hyphens. -/
def Uuid.hyphenated : List Nat → List Char → Bool
  | [], _ => false
  | [n], cs => match takeHex n cs with
    | some (_, []) => true
    | _ => false
  | n :: ns, cs => match takeHex n cs with
    | some (_, '-' :: cs) => hyphenated ns cs
    | _ => false

/-- The spelling of a UUID in RFC 4122. -/
def Uuid.isCanonical (s : String) : Bool := hyphenated [8, 4, 4, 4, 12] s.toList

namespace Uuid

/-- What follows the byte before the last `n` of an identifier. -/
def writeRest (n : Nat) (ds : List (Fin 16)) : List Char :=
  if n ∈ [12, 10, 8, 6] then '-' :: writeBytes n ds else writeBytes n ds

theorem takeHex_hexChar (n : Nat) (x : Fin 16) (cs : List Char) :
    takeHex (n + 1) (hexChar x :: cs) = (takeHex n cs).map fun r => (x :: r.1, r.2) := by
  simp only [takeHex, hexDigit?_hexChar]
  cases takeHex n cs <;> rfl

/-- The bytes up to the next hyphen are read as their digits. -/
theorem takeHex_writeBytes (n : Nat) : ∀ (j : Nat) (ds : List (Fin 16)), ds.length = 2 * (n + j + 1) →
    (∀ m, n < m → m ≤ n + j → m ∉ [12, 10, 8, 6]) →
    takeHex (2 * (j + 1)) (writeBytes (n + j + 1) ds) =
      some (ds.take (2 * (j + 1)), writeRest n (ds.drop (2 * (j + 1))))
  | j, x :: y :: ds, hlen, hno => by
    have hrest : takeHex (2 * j) (writeRest (n + j) ds) = some (ds.take (2 * j), writeRest n (ds.drop (2 * j))) := by
      cases j with
      | zero => rfl
      | succ j =>
        have hn : n + (j + 1) ∉ [12, 10, 8, 6] := hno _ (by omega) (Nat.le_refl _)
        rw [writeRest, if_neg hn]
        refine takeHex_writeBytes n j ds ?_ fun m h1 h2 => hno m h1 (by omega)
        simp only [List.length_cons] at hlen; omega
    have hwrite : writeBytes (n + j + 1) (x :: y :: ds) = hexChar x :: hexChar y :: writeRest (n + j) ds := rfl
    have htwo : 2 * (j + 1) = 2 * j + 1 + 1 := by omega
    rw [hwrite, htwo, takeHex_hexChar, takeHex_hexChar, hrest]
    rfl
  | j, [], hlen, _ => by simp at hlen
  | j, [_], hlen, _ => by simp at hlen; omega

/-- A group of digits up to a hyphen. -/
theorem hyphenated_writeBytes {n j k : Nat} {ks : List Nat} {ds : List (Fin 16)} (hlen : ds.length = 2 * (n + j + 1))
    (hn : n ∈ [12, 10, 8, 6]) (hno : ∀ m, n < m → m ≤ n + j → m ∉ [12, 10, 8, 6]) :
    hyphenated (2 * (j + 1) :: k :: ks) (writeBytes (n + j + 1) ds) =
      hyphenated (k :: ks) (writeBytes n (ds.drop (2 * (j + 1)))) := by
  rw [hyphenated, takeHex_writeBytes n j ds hlen hno, writeRest, if_pos hn]
  · rfl
  · exact fun h => nomatch h

/-- The spelling PostgreSQL prints is the canonical one. -/
theorem isCanonical_uuidOut (u : Uuid) : isCanonical (uuidOut u) = true := by
  have hlen := u.length_eq
  have hbetween : ∀ n j, (∀ m ∈ [12, 10, 8, 6], n < m → n + j < m) → ∀ m, n < m → m ≤ n + j → m ∉ [12, 10, 8, 6] :=
    fun n j h m h1 h2 hm => absurd (h m hm h1) (by omega)
  simp only [isCanonical, uuidOut, String.toList_ofList]
  rw [hyphenated_writeBytes (n := 12) (j := 3) (k := 4) hlen (by decide) (hbetween 12 3 (by decide)),
    hyphenated_writeBytes (n := 10) (j := 1) (k := 4) (by simp [hlen]) (by decide) (hbetween 10 1 (by decide)),
    hyphenated_writeBytes (n := 8) (j := 1) (k := 4) (by simp [hlen]) (by decide) (hbetween 8 1 (by decide)),
    hyphenated_writeBytes (n := 6) (j := 1) (k := 12) (by simp [hlen]) (by decide) (hbetween 6 1 (by decide))]
  have hlast := takeHex_writeBytes 0 5 (((((u.digits.drop 8).drop 4).drop 4).drop 4)) (by simp [hlen])
      (hbetween 0 5 (by decide))
  have hrest : ∀ ds, writeRest 0 ds = [] := fun ds => by simp [writeRest, writeBytes]
  rw [hrest] at hlast
  simp only [hyphenated]
  rw [hlast]
end Uuid

def Format.holds : Format → String → Bool
  | .uuid, s => Uuid.isCanonical s
  | .dateTime, s => Date.isDateTime s

/-- Equality of scalars. -/
def Json.sameScalar : Json String → Json String → Bool
  | .null, .null => true
  | .bool a, .bool b => a = b
  | .num a, .num b => a = b
  | .str a, .str b => a = b
  | _, _ => false

/-- A schema: one keyword, or a combination of schemas. A pattern is the predicate that it is of a text. -/
inductive JsonSchema where
  | type (t : JsonType)
  | const (v : Json String)
  | enum (vs : List (Json String))
  | minLength (n : Nat)
  | maxLength (n : Nat)
  | pattern (p : String → Bool)
  | format (f : Format)
  | minimum (z : Int)
  | maximum (z : Int)
  | required (names : List String)
  | properties (members : List (String × JsonSchema))
  | anyOf (schemas : List JsonSchema)
  | allOf (schemas : List JsonSchema)
  | ifThen (condition consequence : JsonSchema)

namespace JsonSchema

/-- What a keyword for strings asks of a value. -/
def ofString (p : String → Bool) : Json String → Bool
  | .str s => p s
  | _ => true

/-- What a keyword for numbers asks of a value that is an integer. -/
def ofInteger (p : Int → Bool) : Json String → Bool
  | .num n => n.int?.all p
  | _ => true

mutual

/-- The value is valid against the schema. -/
def valid : JsonSchema → Json String → Bool
  | .type t, v => t.holds v
  | .const w, v => w.sameScalar v
  | .enum ws, v => ws.any (Json.sameScalar · v)
  | .minLength n, v => ofString (fun s => n ≤ s.toList.length) v
  | .maxLength n, v => ofString (fun s => s.toList.length ≤ n) v
  | .pattern p, v => ofString p v
  | .format f, v => ofString f.holds v
  | .minimum z, v => ofInteger (z ≤ ·) v
  | .maximum z, v => ofInteger (· ≤ z) v
  | .required names, v => !JsonType.object.holds v || names.all fun name => (v.member name).isSome
  | .properties members, v => validMembers members v
  | .anyOf schemas, v => validAny schemas v
  | .allOf schemas, v => validAll schemas v
  | .ifThen condition consequence, v => !valid condition v || valid consequence v
termination_by structural s => s

def validMembers : List (String × JsonSchema) → Json String → Bool
  | [], _ => true
  | (name, schema) :: members, v => (v.member name).all (valid schema) && validMembers members v
termination_by structural members => members

def validAny : List JsonSchema → Json String → Bool
  | [], _ => false
  | schema :: schemas, v => valid schema v || validAny schemas v
termination_by structural schemas => schemas

def validAll : List JsonSchema → Json String → Bool
  | [], _ => true
  | schema :: schemas, v => valid schema v && validAll schemas v
termination_by structural schemas => schemas

end

attribute [local simp] valid validMembers validAny validAll

section Keywords

variable {s : String} {z : Int}

@[simp] theorem valid_format (f : Format) : (format f).valid (.str s) = f.holds s := by rw [valid, ofString]

@[simp] theorem valid_minLength (n : Nat) : (minLength n).valid (.str s) = decide (n ≤ s.toList.length) := by
  rw [valid, ofString]

@[simp] theorem valid_maxLength (n : Nat) : (maxLength n).valid (.str s) = decide (s.toList.length ≤ n) := by
  rw [valid, ofString]

@[simp] theorem valid_pattern (p : String → Bool) : (pattern p).valid (.str s) = p s := by rw [valid, ofString]

@[simp] theorem valid_minimum (a : Int) : (minimum a).valid (.num (Number.ofInt z)) = decide (a ≤ z) := by
  simp [valid, ofInteger, Number.int?_ofInt]

@[simp] theorem valid_maximum (a : Int) : (maximum a).valid (.num (Number.ofInt z)) = decide (z ≤ a) := by
  simp [valid, ofInteger, Number.int?_ofInt]

@[simp] theorem valid_integer : (type .integer).valid (.num (Number.ofInt z)) = true := by
  simp [valid, JsonType.holds, Number.int?_ofInt]

end Keywords

section Combinations

variable {v : Json String}

theorem valid_allOf {schemas : List JsonSchema} : (allOf schemas).valid v = true ↔ ∀ s ∈ schemas, s.valid v = true := by
  rw [valid]
  induction schemas with
  | nil => simp [validAll]
  | cons s ss ih => simp [validAll, ih]

theorem valid_anyOf {schemas : List JsonSchema} : (anyOf schemas).valid v = true ↔ ∃ s ∈ schemas, s.valid v = true := by
  rw [valid]
  induction schemas with
  | nil => simp [validAny]
  | cons s ss ih => simp [validAny, ih]

theorem valid_properties {members : List (String × JsonSchema)} :
    (properties members).valid v = true ↔ ∀ m ∈ members, ∀ w, v.member m.1 = some w → m.2.valid w = true := by
  rw [valid]
  induction members with
  | nil => simp [validMembers]
  | cons m ms ih =>
    obtain ⟨name, schema⟩ := m
    simp [validMembers, ih, Option.all_eq_true]

end Combinations

end JsonSchema

end PaymentOrchestration.Lib
