/-
Instants in milliseconds since 1970-01-01T00:00:00Z and the text `Date.prototype.toISOString` gives
them: a proleptic Gregorian date with a four-digit year, or a signed six-digit one outside 0..9999.
For the years 0 to 9999 that text is a `date-time` of RFC 3339 and determines the instant.
-/
import PaymentOrchestration.Lib.Number
import Mathlib.Tactic.IntervalCases
import Mathlib.Tactic.NormNum

namespace PaymentOrchestration.Lib

/-- Milliseconds since the epoch. -/
abbrev Millis := Int

namespace Date

/-- A calendar date. -/
structure Civil where
  year : Int
  month : Nat
  day : Nat
deriving DecidableEq

/-- The date of a day of a 400-year era, the era starting on the first of March of a year divisible
by 400: months count from March, so that the leap day is the last day of a year. -/
def civilOfEra (era : Int) (day : Nat) : Civil :=
  let yoe := (day - day / 1460 + day / 36524 - day / 146096) / 365
  let doy := day - (365 * yoe + yoe / 4 - yoe / 100)
  let mp := (5 * doy + 2) / 153
  let month := if mp < 10 then mp + 3 else mp - 9
  ⟨yoe + era * 400 + (if month ≤ 2 then 1 else 0), month, doy - (153 * mp + 2) / 5 + 1⟩

/-- The date of the day `days` after 1970-01-01, which is day 719468 of the era of year 0. -/
def civil (days : Int) : Civil :=
  civilOfEra ((days + 719468) / 146097) ((days + 719468) % 146097).toNat

/-- The last `k` decimal digits of `n`. -/
def padded : Nat → Nat → List Char
  | 0, _ => []
  | k + 1, n => padded k (n / 10) ++ [Number.digitChar (Fin.ofNat 10 n)]

def yearText (y : Int) : List Char :=
  if 0 ≤ y ∧ y ≤ 9999 then padded 4 y.toNat
  else (if y < 0 then '-' else '+') :: padded 6 y.natAbs

/-- `toISOString`. -/
def isoChars (t : Millis) : List Char :=
  let c := civil (t / 86400000)
  let ms := (t % 86400000).toNat
  yearText c.year ++ '-' :: padded 2 c.month ++ '-' :: padded 2 c.day ++ 'T' :: padded 2 (ms / 3600000) ++
    ':' :: padded 2 (ms / 60000 % 60) ++ ':' :: padded 2 (ms / 1000 % 60) ++ '.' :: padded 3 (ms % 1000) ++ ['Z']

def toISOString (t : Millis) : String := String.ofList (isoChars t)

example : toISOString 951782400123 = "2000-02-29T00:00:00.123Z" := by decide

example : toISOString (-1) = "1969-12-31T23:59:59.999Z" := by decide

/-! ## Years of an era -/

/-- The year of an era a day is in, counted from the era's start. -/
def yearOfEra (day : Nat) : Nat := (day - day / 1460 + day / 36524 - day / 146096) / 365

/-- The first day of a year of an era. -/
def yearStart (yoe : Nat) : Nat := 365 * yoe + yoe / 4 - yoe / 100

/-- The divisions that correct for leap days never outrun the day. -/
theorem yearOfEra_mono {a b : Nat} (h : a ≤ b) : yearOfEra a ≤ yearOfEra b := by
  have h1 : a - a / 1460 ≤ b - b / 1460 := by omega
  have h2 : a / 36524 - a / 146096 ≤ b / 36524 - b / 146096 := by
    have ha : a / 146096 = a / 36524 / 4 := by omega
    have hb : b / 146096 = b / 36524 / 4 := by omega
    have hab : a / 36524 ≤ b / 36524 := Nat.div_le_div_right h
    rw [ha, hb]
    omega
  have ha : a / 146096 ≤ a / 36524 := by omega
  have hb : b / 146096 ≤ b / 36524 := by omega
  refine Nat.div_le_div_right ?_
  omega

theorem yearOfEra_yearStart : ∀ y < 400, yearOfEra (yearStart y) = y ∧ yearOfEra (yearStart (y + 1) - 1) = y := by
  decide +kernel

/-- A day lies in the year that is computed for it. -/
theorem yearOfEra_spec {day : Nat} (h : day < 146097) : yearOfEra day ≤ 399 ∧ yearStart (yearOfEra day) ≤ day ∧
    (yearOfEra day < 399 → day < yearStart (yearOfEra day + 1)) := by
  have hle : yearOfEra day ≤ 399 := by
    have := yearOfEra_mono (show day ≤ 146096 by omega)
    have h0 : yearOfEra 146096 = 399 := by decide
    omega
  refine ⟨hle, ?_, fun hlt => ?_⟩
  · by_contra hlt
    cases hy : yearOfEra day with
    | zero => rw [hy] at hlt; simp [yearStart] at hlt
    | succ y =>
      have hprev := (yearOfEra_yearStart y (by omega)).2
      have := yearOfEra_mono (show day ≤ yearStart (y + 1) - 1 by rw [hy] at hlt; omega)
      omega
  · by_contra hge
    have hnext := (yearOfEra_yearStart (yearOfEra day + 1) (by omega)).1
    have := yearOfEra_mono (show yearStart (yearOfEra day + 1) ≤ day by omega)
    omega

/-! ## Dates that exist -/

/-- A leap year of the Gregorian calendar. -/
def leap (y : Int) : Bool := y % 4 = 0 ∧ (y % 100 ≠ 0 ∨ y % 400 = 0)

def daysInMonth (y : Int) (month : Nat) : Nat :=
  if month = 2 then (if leap y then 29 else 28) else if month ∈ [4, 6, 9, 11] then 30 else 31

theorem leap_era (y : Nat) (era : Int) : leap ((y : Int) + era * 400 + 1) = leap ((y : Int) + 1) := by
  unfold leap
  congr 1
  apply propext
  omega

/-- The last day of a year that starts in March is a leap day. -/
theorem dayOfYear_spec {day : Nat} (h : day < 146097) : day - yearStart (yearOfEra day) ≤ 365 ∧
    (day - yearStart (yearOfEra day) = 365 → leap ((yearOfEra day : Int) + 1) = true) := by
  obtain ⟨hle, hlo, hhi⟩ := yearOfEra_spec h
  generalize yearOfEra day = y at *
  by_cases hy : y < 399
  · replace hhi := hhi hy
    unfold yearStart at hlo hhi ⊢
    refine ⟨by omega, fun hlast => ?_⟩
    have h4 : (y + 1) % 4 = 0 := by
      by_contra hne
      have : (y + 1) / 4 = y / 4 := by omega
      have : y / 100 ≤ (y + 1) / 100 := Nat.div_le_div_right (Nat.le_succ y)
      omega
    have h100 : (y + 1) % 100 ≠ 0 := by
      intro h0
      have : (y + 1) / 100 = y / 100 + 1 := by omega
      have : (y + 1) / 4 = y / 4 + 1 := by omega
      omega
    simp only [leap, decide_eq_true_eq]
    omega
  · obtain rfl : y = 399 := by omega
    refine ⟨?_, fun _ => by decide⟩
    unfold yearStart at hlo ⊢
    omega

/-- Every computed date exists. -/
theorem civilOfEra_valid (era : Int) {day : Nat} (h : day < 146097) :
    1 ≤ (civilOfEra era day).month ∧ (civilOfEra era day).month ≤ 12 ∧ 1 ≤ (civilOfEra era day).day ∧
      (civilOfEra era day).day ≤ daysInMonth (civilOfEra era day).year (civilOfEra era day).month := by
  obtain ⟨hdoy, hleap⟩ := dayOfYear_spec h
  have hy : (day - day / 1460 + day / 36524 - day / 146096) / 365 = yearOfEra day := rfl
  have hs : 365 * yearOfEra day + yearOfEra day / 4 - yearOfEra day / 100 = yearStart (yearOfEra day) := rfl
  simp only [civilOfEra, hy, hs]
  generalize day - yearStart (yearOfEra day) = doy at *
  generalize yearOfEra day = y at *
  have hmp : (5 * doy + 2) / 153 ≤ 11 := by omega
  have hlo : 153 * ((5 * doy + 2) / 153) ≤ 5 * doy + 2 := Nat.mul_div_le _ _
  have hhi : 5 * doy + 2 < 153 * ((5 * doy + 2) / 153) + 153 := by omega
  generalize (5 * doy + 2) / 153 = mp at *
  interval_cases mp
  case «11» =>
    simp only [daysInMonth]
    norm_num
    rw [leap_era]
    split
    · omega
    · rename_i hl
      have : doy ≠ 365 := fun h => hl (hleap h)
      omega
  all_goals
    simp only [daysInMonth]
    norm_num
    try omega

/-- The day of a date, counted from 1970-01-01. -/
def dayNumber (c : Civil) : Int :=
  let y := if c.month ≤ 2 then c.year - 1 else c.year
  let mp := if c.month ≤ 2 then c.month + 9 else c.month - 3
  y / 400 * 146097 + yearStart (y % 400).toNat + ((153 * mp + 2) / 5 : Nat) + c.day - 719469

theorem dayNumber_civil (days : Int) : dayNumber (civil days) = days := by
  have hday : ((days + 719468) % 146097).toNat < 146097 := by omega
  have hdays : days = (days + 719468) / 146097 * 146097 + (((days + 719468) % 146097).toNat : Int) - 719468 := by omega
  rw [civil]
  generalize (days + 719468) / 146097 = era at *
  generalize ((days + 719468) % 146097).toNat = day at *
  obtain ⟨hle, hlo, -⟩ := yearOfEra_spec hday
  obtain ⟨hdoy, -⟩ := dayOfYear_spec hday
  have hy : (day - day / 1460 + day / 36524 - day / 146096) / 365 = yearOfEra day := rfl
  have hs : 365 * yearOfEra day + yearOfEra day / 4 - yearOfEra day / 100 = yearStart (yearOfEra day) := rfl
  simp only [civilOfEra, dayNumber, hy, hs]
  obtain ⟨doy, hd⟩ : ∃ doy, day = yearStart (yearOfEra day) + doy := ⟨day - yearStart (yearOfEra day), by omega⟩
  have hdoy' : day - yearStart (yearOfEra day) = doy := by omega
  rw [hdoy'] at hdoy ⊢
  generalize hyoe : yearOfEra day = y at *
  have hmp : (5 * doy + 2) / 153 ≤ 11 := by omega
  have hmonth : ∀ mp ≤ 11, (if (if mp < 10 then mp + 3 else mp - 9) ≤ 2
      then (if mp < 10 then mp + 3 else mp - 9) + 9
      else (if mp < 10 then mp + 3 else mp - 9) - 3) = mp := by decide
  rw [hmonth _ hmp]
  have hyear : ∀ b : Prop, [Decidable b] → (if b then (y : Int) + era * 400 + (if b then 1 else 0) - 1 else
      (y : Int) + era * 400 + (if b then 1 else 0)) = y + era * 400 := by
    intro b _
    by_cases hb : b <;> simp [hb]
  rw [hyear]
  have h400 : ((y : Int) + era * 400) / 400 = era := by omega
  have hmod : (((y : Int) + era * 400) % 400).toNat = y := by omega
  rw [h400, hmod]
  omega

theorem civil_valid (days : Int) : 1 ≤ (civil days).month ∧ (civil days).month ≤ 12 ∧ 1 ≤ (civil days).day ∧
    (civil days).day ≤ daysInMonth (civil days).year (civil days).month :=
  civilOfEra_valid ((days + 719468) / 146097) (by omega)

/-- A date of the years 0 to 9999. -/
theorem civil_year {days : Int} (h0 : -719528 ≤ days) (h1 : days ≤ 2932896) :
    0 ≤ (civil days).year ∧ (civil days).year ≤ 9999 := by
  have hn := dayNumber_civil days
  have hv := civil_valid days
  generalize civil days = c at *
  obtain ⟨hm1, hm2, hd1, hd2⟩ := hv
  have hd3 : c.day ≤ 31 := by
    refine hd2.trans ?_
    unfold daysInMonth
    split
    · split <;> omega
    · split <;> omega
  simp only [dayNumber, yearStart] at hn
  by_cases hm : c.month ≤ 2
  · simp only [if_pos hm] at hn
    obtain ⟨e, r, hy, hr⟩ : ∃ e : Int, ∃ r : Nat, c.year - 1 = e * 400 + r ∧ r < 400 :=
      ⟨(c.year - 1) / 400, ((c.year - 1) % 400).toNat, by omega, by omega⟩
    have he : (c.year - 1) / 400 = e := by omega
    have hr' : ((c.year - 1) % 400).toNat = r := by omega
    rw [he, hr'] at hn
    constructor
    · by_contra hneg
      have : e ≤ -1 := by omega
      have : e = -1 → r ≤ 398 := by omega
      omega
    · by_contra hneg
      have : 24 ≤ e := by omega
      have : e = 24 → r = 399 := by omega
      omega
  · simp only [if_neg hm] at hn
    obtain ⟨e, r, hy, hr⟩ : ∃ e : Int, ∃ r : Nat, c.year = e * 400 + r ∧ r < 400 :=
      ⟨c.year / 400, (c.year % 400).toNat, by omega, by omega⟩
    have he : c.year / 400 = e := by omega
    have hr' : (c.year % 400).toNat = r := by omega
    rw [he, hr'] at hn
    constructor
    · by_contra hneg
      have : e ≤ -1 := by omega
      omega
    · by_contra hneg
      have : 25 ≤ e := by omega
      omega

/-! ## Reading -/

def digit? (c : Char) : Option Nat := if '0' ≤ c ∧ c ≤ '9' then some (c.toNat - 48) else none

@[simp] theorem digit?_digitChar : ∀ d, digit? (Number.digitChar d) = some d.val := by decide

/-- Reads a number of `k` digits. -/
def takeDigits : Nat → List Char → Option (Nat × List Char)
  | 0, cs => some (0, cs)
  | k + 1, cs =>
    match takeDigits k cs with
    | some (n, c :: cs) => (digit? c).map fun d => (10 * n + d, cs)
    | _ => none

/-- Reads the character `c`. -/
def expect (c : Char) : List Char → Option (List Char)
  | x :: cs => if x = c then some cs else none
  | [] => none

theorem takeDigits_padded :
    ∀ (k n : Nat) (rest : List Char), takeDigits k (padded k n ++ rest) = some (n % 10 ^ k, rest)
  | 0, n, rest => by simp [takeDigits, padded, Nat.mod_one]
  | k + 1, n, rest => by
    rw [padded, List.append_assoc, takeDigits, takeDigits_padded k (n / 10)]
    simp only [List.singleton_append, digit?_digitChar, Option.map_some, Option.some.injEq, Prod.mk.injEq, and_true]
    have h := Nat.mod_pow_succ (b := 10) (k := k) (x := n)
    have h' : n % 10 ^ (k + 1) = n % 10 + 10 * (n / 10 % 10 ^ k) := by
      rw [Nat.pow_succ, Nat.mul_comm, Nat.mod_mul]
    rw [h']
    simp only [Fin.ofNat]
    omega

theorem takeDigits_of_lt {k n : Nat} (h : n < 10 ^ k) (rest : List Char) :
    takeDigits k (padded k n ++ rest) = some (n, rest) := by
  rw [takeDigits_padded, Nat.mod_eq_of_lt h]

@[simp] theorem expect_self (c : Char) (cs : List Char) : expect c (c :: cs) = some cs := if_pos rfl

/-- `full-date` of RFC 3339. -/
def readDate (cs : List Char) : Option (Civil × List Char) := do
  let (year, cs) ← takeDigits 4 cs
  let (month, cs) ← takeDigits 2 (← expect '-' cs)
  let (day, cs) ← takeDigits 2 (← expect '-' cs)
  if 1 ≤ month ∧ month ≤ 12 ∧ 1 ≤ day ∧ day ≤ daysInMonth year month then some (⟨year, month, day⟩, cs) else none

/-- The hour, minute and second of `partial-time`, in milliseconds. -/
def readTime (cs : List Char) : Option (Nat × List Char) := do
  let (hour, cs) ← takeDigits 2 cs
  let (minute, cs) ← takeDigits 2 (← expect ':' cs)
  let (second, cs) ← takeDigits 2 (← expect ':' cs)
  if hour ≤ 23 ∧ minute ≤ 59 ∧ second ≤ 60 then some (hour * 3600000 + minute * 60000 + second * 1000, cs) else none

theorem readDate_isoChars {c : Civil} (hy : 0 ≤ c.year ∧ c.year ≤ 9999) (hm : 1 ≤ c.month ∧ c.month ≤ 12)
    (hd : 1 ≤ c.day ∧ c.day ≤ daysInMonth c.year c.month) (rest : List Char) :
    readDate (yearText c.year ++ '-' :: (padded 2 c.month ++ '-' :: (padded 2 c.day ++ rest))) = some (c, rest) := by
  have hday : daysInMonth c.year c.month ≤ 31 := by
    unfold daysInMonth
    split
    · split <;> omega
    · split <;> omega
  have hyear : ((c.year.toNat : Nat) : Int) = c.year := by omega
  have h4 : c.year.toNat < 10 ^ 4 := by omega
  have h2 : c.month < 10 ^ 2 := by omega
  have h3 : c.day < 10 ^ 2 := by omega
  simp only [readDate, yearText, if_pos hy, takeDigits_of_lt h4, takeDigits_of_lt h2, takeDigits_of_lt h3, expect_self,
    Option.bind_eq_bind, Option.bind_some, hyear]
  rw [if_pos ⟨hm.1, hm.2, hd.1, hd.2⟩]

theorem readTime_isoChars {h m s : Nat} (hh : h ≤ 23) (hm : m ≤ 59) (hs : s ≤ 59) (rest : List Char) :
    readTime (padded 2 h ++ ':' :: (padded 2 m ++ ':' :: (padded 2 s ++ rest))) =
      some (h * 3600000 + m * 60000 + s * 1000, rest) := by
  have h1 : h < 10 ^ 2 := by omega
  have h2 : m < 10 ^ 2 := by omega
  have h3 : s < 10 ^ 2 := by omega
  simp only [readTime, takeDigits_of_lt h1, takeDigits_of_lt h2, takeDigits_of_lt h3, expect_self, Option.bind_eq_bind,
    Option.bind_some]
  rw [if_pos ⟨hh, hm, by omega⟩]

/-- The digits of a fraction of a second, if there is one. -/
def readFraction : List Char → Option (List Char)
  | '.' :: c :: cs => if (digit? c).isSome then some (cs.dropWhile fun c => (digit? c).isSome) else none
  | '.' :: [] => none
  | cs => some cs

/-- `time-offset`, at the end of the text. -/
def readOffset : List Char → Bool
  | ['Z'] | ['z'] => true
  | c :: cs => (c = '+' ∨ c = '-') && match takeDigits 2 cs with
    | some (hour, ':' :: cs) => match takeDigits 2 cs with
      | some (minute, []) => hour ≤ 23 ∧ minute ≤ 59
      | _ => false
    | _ => false
  | [] => false

/-- `date-time` of RFC 3339. -/
def isDateTime (s : String) : Bool :=
  match readDate s.toList with
  | some (_, c :: cs) => (c = 'T' ∨ c = 't') && match readTime cs with
    | some (_, cs) => match readFraction cs with
      | some cs => readOffset cs
      | none => false
    | none => false
  | _ => false

/-- The instants of the years 0 to 9999. -/
def InRange (t : Int) : Prop := -62167219200000 ≤ t ∧ t < 253402300800000

/-- How an instant of these years is written. -/
theorem isoChars_parts {t : Int} (ht : InRange t) : ∃ c : Civil, ∃ h m s ms : Nat,
    0 ≤ c.year ∧ c.year ≤ 9999 ∧ 1 ≤ c.month ∧ c.month ≤ 12 ∧ 1 ≤ c.day ∧ c.day ≤ daysInMonth c.year c.month ∧
    h ≤ 23 ∧ m ≤ 59 ∧ s ≤ 59 ∧ ms ≤ 999 ∧ t = dayNumber c * 86400000 + h * 3600000 + m * 60000 + s * 1000 + ms ∧
    isoChars t = yearText c.year ++ '-' :: (padded 2 c.month ++ '-' :: (padded 2 c.day ++
      'T' :: (padded 2 h ++ ':' :: (padded 2 m ++ ':' :: (padded 2 s ++ '.' :: (padded 3 ms ++ ['Z'])))))) := by
  obtain ⟨h0, h1⟩ := ht
  have hdays := dayNumber_civil (t / 86400000)
  have hyear : 0 ≤ (civil (t / 86400000)).year ∧ (civil (t / 86400000)).year ≤ 9999 := civil_year (by omega) (by omega)
  have hvalid := civil_valid (t / 86400000)
  refine ⟨civil (t / 86400000), (t % 86400000).toNat / 3600000, (t % 86400000).toNat / 60000 % 60,
    (t % 86400000).toNat / 1000 % 60, (t % 86400000).toNat % 1000, hyear.1, hyear.2, hvalid.1, hvalid.2.1, hvalid.2.2.1,
    hvalid.2.2.2, by omega, by omega, by omega, by omega, ?_, ?_⟩
  · rw [hdays]; omega
  · simp only [isoChars, List.append_assoc, List.cons_append]

/-- What `toISOString` writes is a date-time. -/
theorem isDateTime_toISOString {t : Int} (ht : InRange t) : isDateTime (toISOString t) = true := by
  obtain ⟨c, h, m, s, ms, hy0, hy1, hm0, hm1, hd0, hd1, hh, hmin, hs, hms, -, htext⟩ := isoChars_parts ht
  have hfraction : ∀ d e f : Fin 10,
      readFraction ('.' :: Number.digitChar d :: Number.digitChar e :: Number.digitChar f :: ['Z']) =
      some ['Z'] := by decide
  have hpadded : padded 3 ms = [Number.digitChar (Fin.ofNat 10 (ms / 10 / 10)),
    Number.digitChar (Fin.ofNat 10 (ms / 10)), Number.digitChar (Fin.ofNat 10 ms)] := rfl
  simp only [isDateTime, toISOString, String.toList_ofList, htext, readDate_isoChars ⟨hy0, hy1⟩ ⟨hm0, hm1⟩ ⟨hd0, hd1⟩,
    readTime_isoChars hh hmin hs, hpadded, List.cons_append, List.nil_append, hfraction]
  rfl

end Date

end PaymentOrchestration.Lib
