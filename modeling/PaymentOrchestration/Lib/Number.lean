/-
JavaScript's finite numbers as the decimals that denote them: `Number::toString` prints the
shortest decimal of a number, so the number is determined by that decimal's sign, digits and point.
`ofText_toText`: reading a printed number back gives the number, whichever of the four layouts of
`Number::toString` it was printed in.
-/
import Mathlib.Data.Nat.Digits.Lemmas
import Mathlib.Data.Rat.Defs
import Mathlib.Data.List.DropRight

namespace PaymentOrchestration.Lib

/-- `Fin.ofNat 10` takes a decimal digit. -/
instance decimalBase : NeZero 10 := ⟨by decide⟩

/-- The number `± 0.d₁d₂… × 10^point`. Positive and negative zero, which compare equal and print
alike, are one value. -/
structure Number where
  neg : Bool
  digits : List (Fin 10)
  point : Int
  head_ne : digits.head? ≠ some 0
  last_ne : digits.getLast? ≠ some 0
  zero : digits = [] → neg = false ∧ point = 0
deriving DecidableEq

namespace Number

theorem ext {x y : Number} (h₁ : x.neg = y.neg) (h₂ : x.digits = y.digits) (h₃ : x.point = y.point) : x = y := by
  cases x; cases y; cases h₁; cases h₂; cases h₃; rfl

/-! ## Normal form -/

/-- Drops leading zeros, moving the point. -/
def stripLeading : List (Fin 10) → Int → List (Fin 10) × Int
  | d :: ds, p => if d = 0 then stripLeading ds (p - 1) else (d :: ds, p)
  | [], p => ([], p)

/-- Drops trailing zeros. -/
def stripTrailing (ds : List (Fin 10)) : List (Fin 10) := ds.rdropWhile (· = 0)

theorem stripLeading_head : ∀ (ds : List (Fin 10)) (p : Int), (stripLeading ds p).1.head? ≠ some 0
  | [], p => by simp [stripLeading]
  | d :: ds, p => by
    simp only [stripLeading]
    split
    · exact stripLeading_head ds (p - 1)
    · rename_i h; simpa using h

theorem stripLeading_of_head {ds : List (Fin 10)} (h : ds.head? ≠ some 0) (p : Int) :
    stripLeading ds p = (ds, p) := by
  cases ds with
  | nil => rfl
  | cons d ds => simp only [List.head?_cons, ne_eq, Option.some.injEq] at h; simp [stripLeading, h]

theorem stripLeading_zeros (n : Nat) (ds : List (Fin 10)) (p : Int) :
    stripLeading (List.replicate n 0 ++ ds) p = stripLeading ds (p - n) := by
  induction n generalizing p with
  | zero => simp
  | succ n ih =>
    simp only [List.replicate_succ, List.cons_append, stripLeading, if_true, ih]
    congr 1; push_cast; ring

theorem stripTrailing_of_last {ds : List (Fin 10)} (h : ds.getLast? ≠ some 0) : stripTrailing ds = ds := by
  rcases List.eq_nil_or_concat ds with rfl | ⟨l, d, rfl⟩
  · rfl
  · have hd : d ≠ 0 := by simpa using h
    simp [stripTrailing, hd]

theorem stripTrailing_zeros (n : Nat) (ds : List (Fin 10)) :
    stripTrailing (ds ++ List.replicate n 0) = stripTrailing ds := by
  induction n with
  | zero => simp
  | succ n ih =>
    rw [List.replicate_succ', ← List.append_assoc]
    simp only [stripTrailing] at ih ⊢
    rw [List.rdropWhile_concat_pos _ _ _ (by simp), ih]

theorem stripTrailing_last (ds : List (Fin 10)) : (stripTrailing ds).getLast? ≠ some 0 := by
  intro h
  obtain ⟨l, hl⟩ := List.getLast?_eq_some_iff.1 h
  have hne : stripTrailing ds ≠ [] := by rw [hl]; simp
  have := List.rdropWhile_last_not (fun d : Fin 10 => decide (d = 0)) ds hne
  rw [List.getLast?_eq_some_getLast hne, Option.some.injEq] at h
  simp only [stripTrailing] at h
  simp [h] at this

/-- What is dropped are zeros. -/
theorem stripTrailing_append (ds : List (Fin 10)) : ∃ k, stripTrailing ds ++ List.replicate k 0 = ds := by
  induction ds using List.reverseRecOn with
  | nil => exact ⟨0, rfl⟩
  | append_singleton ds d ih =>
    by_cases hd : d = 0
    · obtain ⟨k, hk⟩ := ih
      refine ⟨k + 1, ?_⟩
      have hs := stripTrailing_zeros 1 ds
      rw [List.replicate_one] at hs
      rw [hd, hs, List.replicate_succ', ← List.append_assoc, hk]
    · exact ⟨0, by rw [stripTrailing_of_last (by simpa using hd)]; simp⟩

theorem stripTrailing_head {ds : List (Fin 10)} (h : ds.head? ≠ some 0) : (stripTrailing ds).head? ≠ some 0 := by
  intro h0
  obtain ⟨t, ht⟩ := List.rdropWhile_prefix (fun d : Fin 10 => decide (d = 0)) (l := ds)
  cases hs : stripTrailing ds with
  | nil => rw [hs] at h0; cases h0
  | cons d l =>
    rw [hs] at h0
    simp only [stripTrailing] at hs
    rw [← ht, hs] at h
    exact h (by simpa using h0)

/-- The number `± 0.d₁d₂… × 10^p` of any digits. -/
def normalize (neg : Bool) (ds : List (Fin 10)) (p : Int) : Number where
  neg := neg && !(stripTrailing (stripLeading ds p).1).isEmpty
  digits := stripTrailing (stripLeading ds p).1
  point := if (stripTrailing (stripLeading ds p).1).isEmpty then 0 else (stripLeading ds p).2
  head_ne := stripTrailing_head (stripLeading_head ds p)
  last_ne := stripTrailing_last _
  zero := by intro h; simp [h]

theorem normalize_self (x : Number) : normalize x.neg x.digits x.point = x := by
  apply ext <;> simp only [normalize, stripLeading_of_head x.head_ne, stripTrailing_of_last x.last_ne]
  · cases hd : x.digits with
    | nil => simp [(x.zero hd).1]
    | cons d ds => simp
  · cases hd : x.digits with
    | nil => simp [(x.zero hd).2]
    | cons d ds => simp

theorem normalize_trailing (neg : Bool) (n : Nat) {ds : List (Fin 10)} (h : ds.head? ≠ some 0) (hne : ds ≠ [])
    (p : Int) : normalize neg (ds ++ List.replicate n 0) p = normalize neg ds p := by
  have hh : (ds ++ List.replicate n 0).head? ≠ some 0 := by
    cases ds with
    | nil => exact absurd rfl hne
    | cons d ds => simpa using h
  simp only [normalize, stripLeading_of_head h, stripLeading_of_head hh, stripTrailing_zeros]

theorem normalize_leading (neg : Bool) (n : Nat) (ds : List (Fin 10)) (p : Int) :
    normalize neg (List.replicate n 0 ++ ds) p = normalize neg ds (p - n) := by
  simp only [normalize, stripLeading_zeros]

/-! ## Integers -/

/-- The decimal digits of a natural number, most significant first. -/
def natDigits (n : Nat) : List (Fin 10) := ((Nat.digits 10 n).map (Fin.ofNat 10)).reverse

/-- The natural number with the decimal digits `ds`. -/
def natOf (ds : List (Fin 10)) : Nat := ds.foldl (fun n d => 10 * n + d.val) 0

def ofInt (z : Int) : Number := normalize (decide (z < 0)) (natDigits z.natAbs) (natDigits z.natAbs).length

theorem natOf_eq (ds : List (Fin 10)) : natOf ds = Nat.ofDigits 10 (ds.reverse.map Fin.val) := by
  induction ds using List.reverseRecOn with
  | nil => rfl
  | append_singleton ds d ih =>
    simp only [natOf, List.foldl_append, List.foldl_cons, List.foldl_nil] at ih ⊢
    rw [ih]
    simp [Nat.ofDigits_cons]; ring

theorem natOf_natDigits (n : Nat) : natOf (natDigits n) = n := by
  rw [natOf_eq]
  simp only [natDigits, List.reverse_reverse, List.map_map]
  have : (Nat.digits 10 n).map (Fin.val ∘ Fin.ofNat 10) = Nat.digits 10 n := by
    refine (List.map_congr_left fun d hd => ?_).trans (List.map_id _)
    have := Nat.digits_lt_base (by omega) hd
    simp [Fin.ofNat, Nat.mod_eq_of_lt this]
  rw [this, Nat.ofDigits_digits]

theorem natDigits_head (n : Nat) : (natDigits n).head? ≠ some 0 := by
  intro h
  rw [natDigits, List.head?_reverse, List.getLast?_map, Option.map_eq_some_iff] at h
  obtain ⟨d, hd, h0⟩ := h
  have hn : n ≠ 0 := by rintro rfl; simp at hd
  have hne := Nat.digits_ne_nil_iff_ne_zero (b := 10).2 hn
  rw [List.getLast?_eq_some_getLast hne, Option.some.injEq] at hd
  have hlast := Nat.getLast_digit_ne_zero 10 hn
  have hlt := Nat.digits_lt_base (b := 10) (by omega) (List.getLast_mem hne)
  rw [hd] at hlast hlt
  have : d % 10 = 0 := by simpa [Fin.ofNat, Fin.ext_iff] using h0
  omega

/-- Digits without a leading zero are those of their value. -/
theorem natDigits_natOf {ds : List (Fin 10)} (h : ds.head? ≠ some 0) : natDigits (natOf ds) = ds := by
  have hdig : Nat.digits 10 (natOf ds) = ds.reverse.map Fin.val := by
    rw [natOf_eq]
    refine Nat.digits_ofDigits 10 (by omega) _ (fun l hl => ?_) fun hne => ?_
    · obtain ⟨d, -, rfl⟩ := List.mem_map.1 hl
      exact d.isLt
    · intro h0
      have h1 : (ds.reverse.map Fin.val).getLast? = some 0 := by rw [List.getLast?_eq_some_getLast hne, h0]
      rw [List.getLast?_map, List.getLast?_reverse, Option.map_eq_some_iff] at h1
      obtain ⟨d, hd, hd0⟩ := h1
      exact h (by rw [hd]; exact congrArg some (Fin.ext hd0))
  rw [natDigits, hdig, List.map_map, List.map_reverse, List.reverse_reverse]
  refine (List.map_congr_left fun d _ => ?_).trans (List.map_id ds)
  simp [Fin.ofNat, Nat.mod_eq_of_lt d.isLt]

/-- Digits without a fraction are the integer of their value. -/
theorem normalize_integer (neg : Bool) (ds : List (Fin 10)) :
    normalize neg ds ds.length = normalize neg (natDigits (natOf ds)) (natDigits (natOf ds)).length := by
  induction ds with
  | nil => rfl
  | cons d ds ih =>
    by_cases hd : d = 0
    · subst hd
      have h0 : natOf (0 :: ds) = natOf ds := by simp [natOf]
      rw [h0, ← ih]
      have := normalize_leading neg 1 ds (ds.length + 1)
      simpa using this
    · rw [natDigits_natOf (by simpa using hd)]

theorem ofInt_ofNat (n : Nat) : ofInt n = normalize false (natDigits n) (natDigits n).length := by
  have h : decide ((n : Int) < 0) = false := decide_eq_false (by omega)
  simp [ofInt, h]

/-! ## `Number::toString` -/

def digitChar (d : Fin 10) : Char := Char.ofNat (48 + d.val)

def digitOf (c : Char) : Fin 10 := Fin.ofNat 10 (c.toNat - 48)

@[simp] theorem digitOf_digitChar : ∀ d, digitOf (digitChar d) = d := by decide

/-- A printed digit is neither a sign, a point nor the exponent mark. -/
theorem digitChar_ne : ∀ d, digitChar d ≠ '-' ∧ digitChar d ≠ '+' ∧ digitChar d ≠ '.' ∧ digitChar d ≠ 'e' := by
  decide

/-- The digits `ds` with the point after the `n`-th, in the layout that depends on `n`: an integer
of at most 21 digits, a decimal fraction, or scientific notation. -/
def magnitudeText (ds : List (Fin 10)) (n : Int) : List Char :=
  if ds.length ≤ n ∧ n ≤ 21 then ds.map digitChar ++ List.replicate (n - ds.length).toNat '0'
  else if 0 < n ∧ n ≤ 21 then (ds.take n.toNat).map digitChar ++ '.' :: (ds.drop n.toNat).map digitChar
  else if -6 < n ∧ n ≤ 0 then '0' :: '.' :: (List.replicate (-n).toNat '0' ++ ds.map digitChar)
  else
    (ds.take 1).map digitChar ++ (if ds.length = 1 then [] else '.' :: (ds.drop 1).map digitChar) ++
      'e' :: (if n - 1 < 0 then '-' else '+') :: (natDigits (n - 1).natAbs).map digitChar

/-- `Number::toString`. -/
def toText (x : Number) : List Char :=
  if x.digits = [] then ['0'] else (if x.neg then ['-'] else []) ++ magnitudeText x.digits x.point

/-! ## Reading a number back -/

/-- The text before the first `c` and the text after it. -/
def splitAtChar (c : Char) (t : List Char) : List Char × List Char :=
  (t.takeWhile (· ≠ c), (t.dropWhile (· ≠ c)).drop 1)

/-- The value of an exponent. -/
def exponentOf : List Char → Int
  | '-' :: t => -(natOf (t.map digitOf))
  | '+' :: t => natOf (t.map digitOf)
  | t => natOf (t.map digitOf)

/-- The decimal denoted by an unsigned number's text. -/
def magnitudeOf (neg : Bool) (t : List Char) : Number :=
  let (mantissa, exponent) := splitAtChar 'e' t
  let (int, frac) := splitAtChar '.' mantissa
  normalize neg (int.map digitOf ++ frac.map digitOf) (int.length + exponentOf exponent)

/-- `Number(text)`, for the text of a number. -/
def ofText : List Char → Number
  | '-' :: t => magnitudeOf true t
  | t => magnitudeOf false t

theorem splitAtChar_of_not_mem {c : Char} {t : List Char} (h : c ∉ t) : splitAtChar c t = (t, []) := by
  have hp : ∀ x ∈ t, decide (x ≠ c) = true := fun x hx => by
    simp only [ne_eq, decide_eq_true_eq]; rintro rfl; exact h hx
  unfold splitAtChar
  rw [List.takeWhile_eq_self_iff.2 hp, List.dropWhile_eq_nil_iff.2 hp]; rfl

theorem splitAtChar_append {c : Char} {a b : List Char} (h : c ∉ a) : splitAtChar c (a ++ c :: b) = (a, b) := by
  have hp : ∀ x ∈ a, decide (x ≠ c) = true := fun x hx => by
    simp only [ne_eq, decide_eq_true_eq]; rintro rfl; exact h hx
  unfold splitAtChar
  rw [List.takeWhile_append_of_pos hp, List.dropWhile_append_of_pos hp]
  simp

theorem not_mem_digits {c : Char} (hc : ∀ d, digitChar d ≠ c) (ds : List (Fin 10)) : c ∉ ds.map digitChar := by
  intro h
  obtain ⟨d, -, hd⟩ := List.mem_map.1 h
  exact hc d hd

theorem map_digitOf (ds : List (Fin 10)) : (ds.map digitChar).map digitOf = ds := by
  rw [List.map_map]
  exact (List.map_congr_left fun d _ => digitOf_digitChar d).trans (List.map_id ds)

theorem replicate_zero_eq (n : Nat) : List.replicate n '0' = (List.replicate n (0 : Fin 10)).map digitChar := by
  simp [show digitChar 0 = '0' by decide]

theorem not_mem_fraction (a b : List (Fin 10)) : 'e' ∉ a.map digitChar ++ '.' :: b.map digitChar := by
  simp only [List.mem_append, List.mem_cons, not_or]
  exact ⟨not_mem_digits (fun d => (digitChar_ne d).2.2.2) a, by decide,
    not_mem_digits (fun d => (digitChar_ne d).2.2.2) b⟩

/-- A text of digits, a point and digits, without exponent. -/
theorem magnitudeOf_fraction (neg : Bool) (a b : List (Fin 10)) :
    magnitudeOf neg (a.map digitChar ++ '.' :: b.map digitChar) = normalize neg (a ++ b) a.length := by
  unfold magnitudeOf
  simp only [splitAtChar_of_not_mem (not_mem_fraction a b),
    splitAtChar_append (not_mem_digits (fun d => (digitChar_ne d).2.2.1) a), map_digitOf, List.length_map]
  simp [exponentOf, natOf]

theorem magnitudeOf_digits (neg : Bool) (a : List (Fin 10)) :
    magnitudeOf neg (a.map digitChar) = normalize neg a a.length := by
  unfold magnitudeOf
  simp only [splitAtChar_of_not_mem (not_mem_digits (fun d => (digitChar_ne d).2.2.2) a),
    splitAtChar_of_not_mem (not_mem_digits (fun d => (digitChar_ne d).2.2.1) a), map_digitOf, List.length_map]
  simp [exponentOf, natOf]

/-- The same two texts with an exponent. -/
theorem magnitudeOf_fraction_exponent (neg : Bool) (a b : List (Fin 10)) (e : List Char) :
    magnitudeOf neg (a.map digitChar ++ '.' :: b.map digitChar ++ 'e' :: e) =
      normalize neg (a ++ b) (a.length + exponentOf e) := by
  unfold magnitudeOf
  simp only [splitAtChar_append (not_mem_fraction a b),
    splitAtChar_append (not_mem_digits (fun d => (digitChar_ne d).2.2.1) a), map_digitOf, List.length_map]

theorem magnitudeOf_digits_exponent (neg : Bool) (a : List (Fin 10)) (e : List Char) :
    magnitudeOf neg (a.map digitChar ++ 'e' :: e) = normalize neg a (a.length + exponentOf e) := by
  unfold magnitudeOf
  simp only [splitAtChar_append (not_mem_digits (fun d => (digitChar_ne d).2.2.2) a),
    splitAtChar_of_not_mem (not_mem_digits (fun d => (digitChar_ne d).2.2.1) a), map_digitOf, List.length_map]
  simp

theorem exponentOf_text (z : Int) :
    exponentOf ((if z < 0 then '-' else '+') :: (natDigits z.natAbs).map digitChar) = z := by
  split
  · simp only [exponentOf, map_digitOf, natOf_natDigits]; omega
  · simp only [exponentOf, map_digitOf, natOf_natDigits]; omega

theorem magnitudeOf_magnitudeText (neg : Bool) {ds : List (Fin 10)} (hne : ds ≠ []) (hhead : ds.head? ≠ some 0)
    (n : Int) : magnitudeOf neg (magnitudeText ds n) = normalize neg ds n := by
  have hpos := List.length_pos_of_ne_nil hne
  unfold magnitudeText
  split
  · -- an integer
    rename_i hn
    rw [replicate_zero_eq, ← List.map_append, magnitudeOf_digits, normalize_trailing neg _ hhead hne]
    congr 1
    simp only [List.length_append, List.length_replicate]; omega
  split
  · -- a decimal fraction above 1
    rename_i h1 h2
    rw [magnitudeOf_fraction, List.take_append_drop]
    congr 1
    rw [List.length_take]; omega
  split
  · -- a decimal fraction below 1
    rename_i h1 h2 h3
    have h0 : ('0' :: '.' :: (List.replicate (-n).toNat '0' ++ ds.map digitChar)) =
        [(0 : Fin 10)].map digitChar ++ '.' :: (List.replicate (-n).toNat 0 ++ ds).map digitChar := by
      rw [List.map_append, ← replicate_zero_eq]; rfl
    have hz : [(0 : Fin 10)] ++ (List.replicate (-n).toNat 0 ++ ds) = List.replicate ((-n).toNat + 1) 0 ++ ds := by
      rw [List.replicate_succ]; rfl
    rw [h0, magnitudeOf_fraction, hz, normalize_leading]
    congr 1
    simp only [List.length_cons, List.length_nil]; omega
  · -- scientific notation
    have htake : (ds.take 1).length = 1 := by rw [List.length_take]; omega
    split
    · rename_i hlen
      have : ds.take 1 = ds := List.take_of_length_le (by omega)
      rw [List.append_nil, magnitudeOf_digits_exponent, exponentOf_text, htake, this]
      congr 1; omega
    · rw [magnitudeOf_fraction_exponent, exponentOf_text, htake, List.take_append_drop]
      congr 1; omega

theorem magnitudeText_head {ds : List (Fin 10)} (hne : ds ≠ []) (n : Int) (t : List Char) :
    magnitudeText ds n ≠ '-' :: t := by
  intro h
  obtain ⟨d, ds', rfl⟩ := List.exists_cons_of_ne_nil hne
  have hd : ∀ {x : Char} {l : List Char}, digitChar d :: l = x :: t → x ≠ '-' := by
    intro x l hx; rw [← (List.cons.inj hx).1]; exact (digitChar_ne d).1
  unfold magnitudeText at h
  split at h
  · exact hd h rfl
  split at h
  · rename_i h1 h2
    obtain ⟨m, hm⟩ : ∃ m, n.toNat = m + 1 := ⟨n.toNat - 1, by omega⟩
    rw [hm] at h
    exact hd h rfl
  split at h
  · simp at h
  · exact hd h rfl

/-- A number is determined by its printed text. -/
@[simp] theorem ofText_toText (x : Number) : ofText x.toText = x := by
  unfold toText
  split
  · rename_i h
    have : x = ofText ['0'] := by
      apply ext
      · rw [(x.zero h).1]; decide
      · rw [h]; decide
      · rw [(x.zero h).2]; decide
    exact this.symm
  · rename_i h
    have hm : magnitudeOf x.neg (magnitudeText x.digits x.point) = x := by
      rw [magnitudeOf_magnitudeText x.neg h x.head_ne, normalize_self]
    cases hneg : x.neg with
    | true =>
      rw [hneg] at hm
      simpa [ofText] using hm
    | false =>
      rw [hneg] at hm
      simp only [Bool.false_eq_true, if_false, List.nil_append]
      unfold ofText
      split
      · rename_i t ht; exact absurd ht (magnitudeText_head h x.point t)
      · exact hm

theorem toText_inj {x y : Number} (h : x.toText = y.toText) : x = y := by
  rw [← ofText_toText x, h, ofText_toText]

/-- The characters a number is printed with. -/
def numberChars : List Char := ['0', '1', '2', '3', '4', '5', '6', '7', '8', '9', '-', '+', '.', 'e']

/-- A property of all these characters, as a conjunction. -/
theorem forall_numberChars {p : Char → Prop} : (∀ c ∈ numberChars, p c) ↔
    p '0' ∧ p '1' ∧ p '2' ∧ p '3' ∧ p '4' ∧ p '5' ∧ p '6' ∧ p '7' ∧ p '8' ∧ p '9' ∧ p '-' ∧ p '+' ∧ p '.' ∧ p 'e' := by
  simp [numberChars]

theorem digitChar_mem : ∀ d, digitChar d ∈ numberChars := by decide

theorem magnitudeText_chars (ds : List (Fin 10)) (n : Int) : ∀ c ∈ magnitudeText ds n, c ∈ numberChars := by
  have hds : ∀ (l : List (Fin 10)), ∀ c ∈ l.map digitChar, c ∈ numberChars := by
    intro l c hc
    obtain ⟨d, -, rfl⟩ := List.mem_map.1 hc
    exact digitChar_mem d
  have hzero : ∀ (k : Nat), ∀ c ∈ List.replicate k '0', c ∈ numberChars := by
    intro k c hc
    rw [List.eq_of_mem_replicate hc]; decide
  have hmark : ∀ c ∈ ['-', '+', '.', 'e', '0'], c ∈ numberChars := by simp [numberChars]
  unfold magnitudeText
  split
  · intro c hc
    rcases List.mem_append.1 hc with hc | hc
    · exact hds _ c hc
    · exact hzero _ c hc
  split
  · intro c hc
    simp only [List.mem_append, List.mem_cons] at hc
    rcases hc with hc | rfl | hc
    · exact hds _ c hc
    · exact hmark '.' (by decide)
    · exact hds _ c hc
  split
  · intro c hc
    simp only [List.mem_cons, List.mem_append] at hc
    rcases hc with rfl | rfl | hc | hc
    · exact hmark '0' (by decide)
    · exact hmark '.' (by decide)
    · exact hzero _ c hc
    · exact hds _ c hc
  · intro c hc
    simp only [List.mem_append, List.mem_cons] at hc
    rcases hc with (hc | hc) | rfl | rfl | hc
    · exact hds _ c hc
    · split at hc
      · cases hc
      · rcases List.mem_cons.1 hc with rfl | hc
        · exact hmark '.' (by decide)
        · exact hds _ c hc
    · exact hmark 'e' (by decide)
    · split <;> exact hmark _ (by decide)
    · exact hds _ c hc

theorem toText_chars (x : Number) : ∀ c ∈ x.toText, c ∈ numberChars := by
  unfold toText
  split
  · simp [numberChars]
  · intro c hc
    rcases List.mem_append.1 hc with hc | hc
    · split at hc
      · rw [List.mem_singleton.1 hc]; decide
      · cases hc
    · exact magnitudeText_chars _ _ c hc

theorem toText_ne_nil (x : Number) : x.toText ≠ [] := by
  unfold toText
  split
  · simp
  · rename_i h
    obtain ⟨d, ds, hds⟩ := List.exists_cons_of_ne_nil h
    intro hnil
    have hm := (List.append_eq_nil_iff.1 hnil).2
    unfold magnitudeText at hm
    rw [hds] at hm
    split at hm
    · simp at hm
    split at hm
    · simp at hm
    split at hm <;> simp at hm

/-- A positive integer of at most 21 digits is printed as its digits. -/
theorem toText_ofInt {n : Nat} (h0 : 0 < n) (hlen : (natDigits n).length ≤ 21) :
    (ofInt n).toText = (natDigits n).map digitChar := by
  obtain ⟨k, hk⟩ := stripTrailing_append (natDigits n)
  have hne : natDigits n ≠ [] := by
    intro hnil
    have := natOf_natDigits n
    rw [hnil] at this
    simp only [natOf, List.foldl_nil] at this
    omega
  have hstrip : stripTrailing (natDigits n) ≠ [] := by
    intro hnil
    rw [hnil, List.nil_append] at hk
    have hhead := natDigits_head n
    rw [← hk] at hhead hne
    cases k with
    | zero => exact hne rfl
    | succ k => simp [List.replicate_succ] at hhead
  have hlk : (stripTrailing (natDigits n)).length + k = (natDigits n).length := by
    have := congrArg List.length hk
    simpa using this
  rw [ofInt_ofNat]
  simp only [toText, normalize, stripLeading_of_head (natDigits_head n), Bool.false_and, Bool.false_eq_true, if_false,
    List.nil_append, List.isEmpty_iff, hstrip]
  unfold magnitudeText
  rw [if_pos (by omega)]
  have hzeros : ((natDigits n).length - (stripTrailing (natDigits n)).length : Int).toNat = k := by omega
  rw [hzeros, replicate_zero_eq, ← List.map_append, hk]

example : (ofInt 1000).toText = "1000".toList := by decide

/-- The digits of a number below `10 ^ k`. -/
theorem natDigits_length {n k : Nat} (h : n < 10 ^ k) : (natDigits n).length ≤ k := by
  rw [natDigits, List.length_reverse, List.length_map]
  exact (Nat.digits_length_le_iff (by decide) n).2 h

end Number

/-- A number that is not NaN, such as `JSON.parse` reads: a literal that is too large is infinite. -/
inductive JsNumber
  | finite (n : Number)
  | infinite (neg : Bool)
deriving DecidableEq

end PaymentOrchestration.Lib
