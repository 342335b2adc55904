/-
JavaScript strings as sequences of UTF-16 code units, and the string literals of `JSON.stringify`.
A literal determines its string and where it ends (`quote_append_inj`), also for strings with lone
surrogates, which are written as escapes.
-/
import Mathlib.Data.UInt

namespace PaymentOrchestration.Lib

/-- The code units of a JavaScript string. -/
abbrev JsString := List UInt16

/-- The order of `Array.prototype.sort`: by code units, from the left. -/
instance : LinearOrder JsString where
  le_refl := List.le_refl
  le_trans := fun _ _ _ => List.le_trans
  le_antisymm := fun _ _ => List.le_antisymm
  le_total := List.le_total
  lt_iff_le_not_ge := fun _ _ => ⟨fun h => ⟨List.le_of_lt h, not_not.2 h⟩, fun h => not_not.1 h.2⟩
  toDecidableLE := inferInstance
  toDecidableLT := inferInstance
  toDecidableEq := inferInstance
  toOrd := ⟨fun a b => compareOfLessAndEq a b⟩
  compare_eq_compareOfLessAndEq := fun _ _ => rfl

namespace JsString

/-- The code unit of a character of the Basic Multilingual Plane. -/
def unit (c : Char) : UInt16 := UInt16.ofNat c.toNat

/-- The code units of a text within the Basic Multilingual Plane. -/
def units (cs : List Char) : JsString := cs.map unit

def utf16Char (c : Char) : JsString :=
  if c.toNat < 0x10000 then [UInt16.ofNat c.toNat]
  else [UInt16.ofNat (0xD800 + (c.toNat - 0x10000) / 0x400), UInt16.ofNat (0xDC00 + (c.toNat - 0x10000) % 0x400)]

/-- The code units of a well-formed text. -/
def utf16 (s : String) : JsString := s.toList.flatMap utf16Char

theorem char_bounds (c : Char) : c.toNat < 0xD800 ∨ 0xDFFF < c.toNat ∧ c.toNat < 0x110000 := by
  have := c.valid
  simp only [UInt32.isValidChar, Nat.isValidChar] at this
  exact this

theorem toNat_ofNat {n : Nat} (h : n < 65536) : (UInt16.ofNat n).toNat = n := by
  simp [Nat.mod_eq_of_lt h]

theorem utf16Char_append_inj {c d : Char} {s t : JsString} (h : utf16Char c ++ s = utf16Char d ++ t) :
    c = d ∧ s = t := by
  have hc := char_bounds c
  have hd := char_bounds d
  have key : c.toNat = d.toNat ∧ s = t := by
    unfold utf16Char at h
    split at h <;> split at h <;> simp only [List.cons_append, List.nil_append, List.cons.injEq] at h
    · obtain ⟨h1, h2⟩ := h
      have := congrArg UInt16.toNat h1
      rw [toNat_ofNat (by omega), toNat_ofNat (by omega)] at this
      exact ⟨this, h2⟩
    · have := congrArg UInt16.toNat h.1
      rw [toNat_ofNat (by omega), toNat_ofNat (by omega)] at this
      omega
    · have := congrArg UInt16.toNat h.1
      rw [toNat_ofNat (by omega), toNat_ofNat (by omega)] at this
      omega
    · obtain ⟨h1, h2, h3⟩ := h
      have e1 := congrArg UInt16.toNat h1
      have e2 := congrArg UInt16.toNat h2
      rw [toNat_ofNat (by omega), toNat_ofNat (by omega)] at e1 e2
      exact ⟨by omega, h3⟩
  exact ⟨Char.toNat_inj.1 key.1, key.2⟩

theorem utf16Char_ne_nil (c : Char) : utf16Char c ≠ [] := by
  unfold utf16Char; split <;> simp

theorem flatMap_utf16Char_inj : ∀ {s t : List Char}, s.flatMap utf16Char = t.flatMap utf16Char → s = t
  | [], [], _ => rfl
  | [], d :: t, h => by
    rw [List.flatMap_cons] at h
    exact absurd (List.append_eq_nil_iff.1 h.symm).1 (utf16Char_ne_nil d)
  | c :: s, [], h => by
    rw [List.flatMap_cons] at h
    exact absurd (List.append_eq_nil_iff.1 h).1 (utf16Char_ne_nil c)
  | c :: s, d :: t, h => by
    simp only [List.flatMap_cons] at h
    obtain ⟨rfl, hst⟩ := utf16Char_append_inj h
    rw [flatMap_utf16Char_inj hst]

/-- A well-formed text is determined by its code units. -/
theorem utf16_inj {s t : String} (h : utf16 s = utf16 t) : s = t :=
  String.toList_inj.1 (flatMap_utf16Char_inj h)

/-! ## String literals of `JSON.stringify` -/

def isHighSurrogate (u : UInt16) : Bool := 0xD800 ≤ u.toNat ∧ u.toNat ≤ 0xDBFF

def isLowSurrogate (u : UInt16) : Bool := 0xDC00 ≤ u.toNat ∧ u.toNat ≤ 0xDFFF

/-- The lower-case digit with value `d`. -/
def hexUnit (d : Nat) : UInt16 := UInt16.ofNat (if d < 10 then 48 + d else 87 + d)

/-- The value of a lower-case digit. -/
def hexValue (u : UInt16) : Nat := if u.toNat < 58 then u.toNat - 48 else u.toNat - 87

/-- A `\u` escape. -/
def unicodeEscape (u : UInt16) : JsString :=
  [0x5C, 0x75, hexUnit (u.toNat / 4096), hexUnit (u.toNat / 256 % 16), hexUnit (u.toNat / 16 % 16),
    hexUnit (u.toNat % 16)]

/-- The literal of one code unit that is not half of a surrogate pair. -/
def escapeUnit (u : UInt16) : JsString :=
  if u = 0x08 then [0x5C, 0x62]
  else if u = 0x09 then [0x5C, 0x74]
  else if u = 0x0A then [0x5C, 0x6E]
  else if u = 0x0C then [0x5C, 0x66]
  else if u = 0x0D then [0x5C, 0x72]
  else if u = 0x22 then [0x5C, 0x22]
  else if u = 0x5C then [0x5C, 0x5C]
  else if u.toNat < 0x20 ∨ isHighSurrogate u ∨ isLowSurrogate u then unicodeEscape u
  else [u]

/-- The text between the quotes: surrogate pairs stay, everything else is escaped as needed. -/
def escape : JsString → JsString
  | hi :: lo :: s =>
    if isHighSurrogate hi && isLowSurrogate lo then hi :: lo :: escape s else escapeUnit hi ++ escape (lo :: s)
  | [u] => escapeUnit u
  | [] => []

/-- `QuoteJSONString`. -/
def quote (s : JsString) : JsString := 0x22 :: (escape s ++ [0x22])

/-! ## A literal determines its string -/

/-- The code unit a literal starts with, and the rest of the literal. -/
def unescape : JsString → Option (UInt16 × JsString)
  | [] => none
  | u :: s =>
    if u = 0x22 then none
    else if u = 0x5C then
      match s with
      | [] => none
      | v :: s =>
        if v = 0x62 then some (0x08, s)
        else if v = 0x74 then some (0x09, s)
        else if v = 0x6E then some (0x0A, s)
        else if v = 0x66 then some (0x0C, s)
        else if v = 0x72 then some (0x0D, s)
        else if v = 0x75 then
          match s with
          | a :: b :: c :: d :: s =>
            some (UInt16.ofNat (hexValue a * 4096 + hexValue b * 256 + hexValue c * 16 + hexValue d), s)
          | _ => none
        else some (v, s)
    else some (u, s)

/-- `x` is a text between quotes that spells `s`. -/
inductive Spells : JsString → JsString → Prop
  | nil : Spells [] []
  | cons {u : UInt16} {x s y : JsString} : (∀ r, unescape (x ++ r) = some (u, r)) →
      Spells s y → Spells (u :: s) (x ++ y)

theorem hexValue_hexUnit : ∀ d < 16, hexValue (hexUnit d) = d := by decide

theorem unescape_unicodeEscape (u : UInt16) (r : JsString) : unescape (unicodeEscape u ++ r) = some (u, r) := by
  have hu := u.toNat_lt
  simp only [unicodeEscape, List.cons_append, List.nil_append, unescape]
  rw [hexValue_hexUnit _ (by omega), hexValue_hexUnit _ (by omega), hexValue_hexUnit _ (by omega),
    hexValue_hexUnit _ (by omega)]
  have : u.toNat / 4096 * 4096 + u.toNat / 256 % 16 * 256 + u.toNat / 16 % 16 * 16 + u.toNat % 16 = u.toNat := by
    omega
  rw [this, UInt16.ofNat_toNat]
  rfl

theorem unescape_escapeUnit (u : UInt16) (r : JsString) : unescape (escapeUnit u ++ r) = some (u, r) := by
  unfold escapeUnit
  repeat' split
  all_goals first
    | exact unescape_unicodeEscape u r
    | (subst_vars; rfl)
    | simp_all [unescape]

theorem unescape_surrogate {u : UInt16} (h : isHighSurrogate u = true ∨ isLowSurrogate u = true) (r : JsString) :
    unescape ([u] ++ r) = some (u, r) := by
  have h1 : u ≠ 0x22 := by rintro rfl; revert h; decide
  have h2 : u ≠ 0x5C := by rintro rfl; revert h; decide
  simp [unescape, h1, h2]

theorem spells_escape : ∀ s : JsString, Spells s (escape s)
  | [] => .nil
  | [u] => by
    have := Spells.cons (unescape_escapeUnit u) .nil
    simpa [escape] using this
  | hi :: lo :: s => by
    simp only [escape]
    split
    · rename_i h
      rw [Bool.and_eq_true] at h
      exact .cons (unescape_surrogate (.inl h.1)) (.cons (unescape_surrogate (.inr h.2)) (spells_escape s))
    · exact .cons (unescape_escapeUnit hi) (spells_escape (lo :: s))

theorem unescape_quote (r : JsString) : unescape (0x22 :: r) = none := rfl

theorem Spells.append_inj {s t x y a b : JsString} (hs : Spells s x) (ht : Spells t y)
    (h : x ++ 0x22 :: a = y ++ 0x22 :: b) : s = t ∧ a = b := by
  induction hs generalizing t y with
  | nil =>
    cases ht with
    | nil => simpa using h
    | cons hu _ =>
      have := congrArg unescape h
      rw [List.append_assoc, hu, List.nil_append, unescape_quote] at this
      cases this
  | cons hu _ ih =>
    cases ht with
    | nil =>
      have := congrArg unescape h
      rw [List.append_assoc, hu, List.nil_append, unescape_quote] at this
      cases this
    | cons hv ht =>
      have := congrArg unescape h
      rw [List.append_assoc, List.append_assoc, hu, hv] at this
      simp only [Option.some.injEq, Prod.mk.injEq] at this
      obtain ⟨rfl, hr⟩ := ih ht this.2
      exact ⟨by rw [this.1], hr⟩

/-- A literal determines its string and the text after it. -/
theorem quote_append_inj {s t a b : JsString} (h : quote s ++ a = quote t ++ b) : s = t ∧ a = b := by
  simp only [quote, List.cons_append, List.append_assoc, List.cons.injEq, List.nil_append, true_and] at h
  exact (spells_escape s).append_inj (spells_escape t) h

example : quote (utf16 "a\"\n") = units "\"a\\\"\\n\"".toList := by decide

end JsString

end PaymentOrchestration.Lib
