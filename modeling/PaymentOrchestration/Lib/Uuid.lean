/-
UUID values and two of their textual syntaxes: what PostgreSQL's `uuid` type reads and prints, and
what Joi's `string().uuid()` (alias of `guid`) accepts. The two readers accept different sets of
spellings: `uuidIn_of_guid` says which accepted spelling of one is read by the other.
-/
import Mathlib.Algebra.Ring.Nat
import Mathlib.Data.List.Basic

namespace PaymentOrchestration.Lib

/-- `Fin.ofNat 16` takes a hexadecimal digit. -/
instance hexadecimalBase : NeZero 16 := ⟨by decide⟩

/-- A 128-bit identifier, as 32 hexadecimal digits. -/
structure Uuid where
  digits : List (Fin 16)
  length_eq : digits.length = 32
deriving DecidableEq

namespace Uuid

theorem ext {u v : Uuid} (h : u.digits = v.digits) : u = v := by
  cases u; cases v; cases h; rfl

/-- The identifier with the 128-bit value `n`, for concrete examples. -/
def ofNat (n : Nat) : Uuid :=
  ⟨(List.range 32).map fun i => Fin.ofNat 16 (n / 16 ^ (31 - i)), by simp⟩

/-- The value of a hexadecimal digit, in either case. -/
def hexDigit? (c : Char) : Option (Fin 16) :=
  if '0' ≤ c ∧ c ≤ '9' then some (Fin.ofNat 16 (c.toNat - 48))
  else if 'a' ≤ c ∧ c ≤ 'f' then some (Fin.ofNat 16 (c.toNat - 87))
  else if 'A' ≤ c ∧ c ≤ 'F' then some (Fin.ofNat 16 (c.toNat - 55))
  else none

/-- The lower-case digit with value `d`. -/
def hexChar (d : Fin 16) : Char := Char.ofNat (if d.val < 10 then 48 + d.val else 87 + d.val)

@[simp] theorem hexDigit?_hexChar : ∀ d, hexDigit? (hexChar d) = some d := by decide

theorem hexChar_ne_hyphen : ∀ d, hexChar d ≠ '-' := by decide

/-! ## PostgreSQL -/

/-- A hyphen, where one may stand. -/
def skipHyphen : List Char → List Char
  | '-' :: cs => cs
  | cs => cs

/-- Reads `n` bytes, two digits each. A hyphen may follow a byte at an odd position, but not the
last byte; counted from the end of 16, that is when `n` bytes were left, `n` odd and above 1. -/
def readBytes : Nat → List Char → Option (List (Fin 16) × List Char)
  | 0, cs => some ([], cs)
  | n + 1, a :: b :: cs =>
    match hexDigit? a, hexDigit? b with
    | some x, some y =>
      match readBytes n (if n % 2 = 0 ∧ n ≠ 0 then skipHyphen cs else cs) with
      | some (ds, rest) => some (x :: y :: ds, rest)
      | none => none
    | _, _ => none
  | _ + 1, _ => none

theorem readBytes_of_not_digit {c : Char} (hc : hexDigit? c = none) (n : Nat) (cs : List Char) :
    readBytes (n + 1) (c :: cs) = none := by
  cases cs <;> simp [readBytes, hc]

theorem readBytes_length : ∀ (n : Nat) (cs : List Char) {ds rest},
    readBytes n cs = some (ds, rest) → ds.length = 2 * n
  | 0, cs, ds, rest, h => by
    simp only [readBytes, Option.some.injEq, Prod.mk.injEq] at h
    simp [← h.1]
  | n + 1, [], ds, rest, h => by simp [readBytes] at h
  | n + 1, [_], ds, rest, h => by simp [readBytes] at h
  | n + 1, a :: b :: cs, ds, rest, h => by
    simp only [readBytes] at h
    split at h
    · split at h
      · rename_i ds' rest' hr
        cases h
        have := readBytes_length n _ hr
        simp [this]; omega
      · cases h
    · cases h

/-- Reads the 16 bytes of an identifier. -/
def readUuid (cs : List Char) : Option (Uuid × List Char) :=
  match h : readBytes 16 cs with
  | none => none
  | some (ds, rest) => some (⟨ds, readBytes_length 16 _ h⟩, rest)

theorem readUuid_eq_some {cs rest : List Char} {u : Uuid} :
    readUuid cs = some (u, rest) ↔ readBytes 16 cs = some (u.digits, rest) := by
  unfold readUuid
  split
  · rename_i h; simp [h]
  · rename_i ds r h
    simp only [h, Option.some.injEq, Prod.mk.injEq]
    exact and_congr_left fun _ => ⟨fun h => by rw [← h], fun h => ext h⟩

theorem readUuid_eq_none {cs : List Char} : readUuid cs = none ↔ readBytes 16 cs = none := by
  unfold readUuid
  split <;> rename_i h <;> simp [h]

/-- `uuid_in`: 16 bytes, optionally in braces. -/
def uuidIn (s : String) : Option Uuid :=
  match s.toList with
  | '{' :: cs => match readUuid cs with
    | some (u, ['}']) => some u
    | _ => none
  | cs => match readUuid cs with
    | some (u, []) => some u
    | _ => none

theorem uuidIn_of_brace {s : String} {cs : List Char} {u : Uuid} (hs : s.toList = '{' :: cs)
    (h : readBytes 16 cs = some (u.digits, ['}'])) : uuidIn s = some u := by
  simp [uuidIn, hs, readUuid_eq_some.2 h]

theorem uuidIn_of_plain {s : String} {u : Uuid} (hs : ∀ cs, s.toList ≠ '{' :: cs)
    (h : readBytes 16 s.toList = some (u.digits, [])) : uuidIn s = some u := by
  unfold uuidIn
  split
  · rename_i cs hc; exact absurd hc (hs cs)
  · rw [readUuid_eq_some.2 h]

theorem uuidIn_eq_none {s : String} (hs : ∀ cs, s.toList ≠ '{' :: cs) (h : readBytes 16 s.toList = none) :
    uuidIn s = none := by
  unfold uuidIn
  split
  · rename_i cs hc; exact absurd hc (hs cs)
  · rw [readUuid_eq_none.2 h]

theorem length_le_skipHyphen (cs : List Char) : cs.length ≤ (skipHyphen cs).length + 1 := by
  unfold skipHyphen; split <;> simp

theorem readBytes_consumed : ∀ (n : Nat) (cs : List Char) {ds rest},
    readBytes n cs = some (ds, rest) → cs.length ≤ 3 * n + rest.length
  | 0, cs, ds, rest, h => by
    simp only [readBytes, Option.some.injEq, Prod.mk.injEq] at h
    simp [h.2]
  | n + 1, [], ds, rest, h => by simp [readBytes] at h
  | n + 1, [_], ds, rest, h => by simp [readBytes] at h
  | n + 1, a :: b :: cs, ds, rest, h => by
    simp only [readBytes] at h
    split at h
    · split at h
      · rename_i ds' rest' hr
        cases h
        have := readBytes_consumed n _ hr
        have hcs := length_le_skipHyphen cs
        simp only [List.length_cons]
        split at this <;> omega
      · cases h
    · cases h

/-- A text that is read as an identifier is short. -/
theorem uuidIn_length {s : String} {u : Uuid} (h : uuidIn s = some u) : s.toList.length ≤ 50 := by
  unfold uuidIn at h
  split at h
  · rename_i cs hs
    split at h
    · rename_i v hv
      have := readBytes_consumed 16 cs (readUuid_eq_some.1 hv)
      rw [hs]; simp only [List.length_cons, List.length_nil] at this ⊢; omega
    · cases h
  · split at h
    · rename_i v hv
      have := readBytes_consumed 16 _ (readUuid_eq_some.1 hv)
      simp only [List.length_nil] at this; omega
    · cases h

/-- Prints the digits of `n` bytes, with a hyphen after the fourth, sixth, eighth and tenth of 16. -/
def writeBytes : Nat → List (Fin 16) → List Char
  | n + 1, x :: y :: ds =>
    hexChar x :: hexChar y :: if n ∈ [12, 10, 8, 6] then '-' :: writeBytes n ds else writeBytes n ds
  | _, _ => []

/-- `uuid_out`: the canonical lower-case spelling. -/
def uuidOut (u : Uuid) : String := String.ofList (writeBytes 16 u.digits)

theorem skipHyphen_writeBytes (n : Nat) (ds : List (Fin 16)) : skipHyphen (writeBytes n ds) = writeBytes n ds := by
  match n, ds with
  | 0, _ => simp [writeBytes, skipHyphen]
  | _ + 1, [] => simp [writeBytes, skipHyphen]
  | _ + 1, [_] => simp [writeBytes, skipHyphen]
  | n + 1, x :: y :: ds =>
    simp only [writeBytes]
    unfold skipHyphen
    split
    · rename_i h; exact absurd (List.cons.inj h).1 (hexChar_ne_hyphen x)
    · rfl

theorem readBytes_writeBytes : ∀ (n : Nat) (ds : List (Fin 16)), n ≤ 16 → ds.length = 2 * n →
    readBytes n (writeBytes n ds) = some (ds, [])
  | 0, ds, _, h => by
    obtain rfl : ds = [] := List.eq_nil_of_length_eq_zero (by omega)
    rfl
  | n + 1, [], _, h => by simp at h
  | n + 1, [_], _, h => by simp at h; omega
  | n + 1, x :: y :: ds, hn, h => by
    have ih := readBytes_writeBytes n ds (by omega) (by simp at h; omega)
    have hrest : (if n % 2 = 0 ∧ n ≠ 0 then
        skipHyphen (if n ∈ [12, 10, 8, 6] then '-' :: writeBytes n ds else writeBytes n ds)
      else (if n ∈ [12, 10, 8, 6] then '-' :: writeBytes n ds else writeBytes n ds)) = writeBytes n ds := by
      by_cases hm : n ∈ [12, 10, 8, 6]
      · have : n % 2 = 0 ∧ n ≠ 0 := by
          simp only [List.mem_cons, List.not_mem_nil, or_false] at hm
          omega
        rw [if_pos this, if_pos hm]; rfl
      · rw [if_neg hm, skipHyphen_writeBytes, ite_self]
    simp only [writeBytes, readBytes, hexDigit?_hexChar, hrest, ih]

/-- What PostgreSQL prints it reads back. -/
@[simp] theorem uuidIn_uuidOut (u : Uuid) : uuidIn (uuidOut u) = some u := by
  refine uuidIn_of_plain (fun cs h => ?_) ?_
  · rw [uuidOut, String.toList_ofList] at h
    match hd : u.digits, u.length_eq with
    | x :: y :: ds, _ =>
      rw [hd] at h
      simp only [writeBytes] at h
      exact (by decide : ∀ d, hexChar d ≠ '{') x (List.cons.inj h).1
  · rw [uuidOut, String.toList_ofList]
    exact readBytes_writeBytes 16 u.digits (by omega) u.length_eq

theorem uuidOut_inj {u v : Uuid} (h : uuidOut u = uuidOut v) : u = v := by
  have := congrArg uuidIn h
  simpa using this

theorem writeBytes_chars : ∀ (n : Nat) (ds : List (Fin 16)), ∀ c ∈ writeBytes n ds, c = '-' ∨ ∃ d, c = hexChar d
  | 0, _, c, h => by simp [writeBytes] at h
  | _ + 1, [], c, h => by simp [writeBytes] at h
  | _ + 1, [_], c, h => by simp [writeBytes] at h
  | n + 1, x :: y :: ds, c, h => by
    simp only [writeBytes, List.mem_cons] at h
    rcases h with rfl | rfl | h
    · exact .inr ⟨x, rfl⟩
    · exact .inr ⟨y, rfl⟩
    · split at h
      · rcases List.mem_cons.1 h with rfl | h
        · exact .inl rfl
        · exact writeBytes_chars n ds c h
      · exact writeBytes_chars n ds c h

/-- A printed identifier consists of digits and hyphens. -/
theorem uuidOut_chars (u : Uuid) : ∀ c ∈ (uuidOut u).toList, c = '-' ∨ ∃ d, c = hexChar d := by
  rw [uuidOut, String.toList_ofList]; exact writeBytes_chars 16 u.digits

theorem hexChar_ne_nul : ∀ d, hexChar d ≠ '\x00' := by decide

theorem nul_not_mem_uuidOut (u : Uuid) : '\x00' ∉ (uuidOut u).toList := by
  intro h
  rcases uuidOut_chars u _ h with h | ⟨d, h⟩
  · exact absurd h (by decide)
  · exact hexChar_ne_nul d h.symm

theorem uuidOut_length (u : Uuid) : (uuidOut u).toList.length ≤ 50 := uuidIn_length (uuidIn_uuidOut u)

example : uuidOut (ofNat 0x123e4567e89b12d3a456426614174000) = "123e4567-e89b-12d3-a456-426614174000" := by decide

/-! ## Joi -/

/-- Reads `n` hexadecimal digits. -/
def takeHex : Nat → List Char → Option (List (Fin 16) × List Char)
  | 0, cs => some ([], cs)
  | n + 1, c :: cs =>
    match hexDigit? c, takeHex n cs with
    | some d, some (ds, rest) => some (d :: ds, rest)
    | _, _ => none
  | _ + 1, [] => none

theorem takeHex_length : ∀ (n : Nat) (cs : List Char) {ds rest}, takeHex n cs = some (ds, rest) → ds.length = n
  | 0, cs, ds, rest, h => by
    simp only [takeHex, Option.some.injEq, Prod.mk.injEq] at h
    simp [← h.1]
  | n + 1, [], ds, rest, h => by simp [takeHex] at h
  | n + 1, c :: cs, ds, rest, h => by
    simp only [takeHex] at h
    split at h
    · rename_i d ds' rest' _ hr
      cases h
      simp [takeHex_length n cs hr]
    · cases h

/-- The opening bracket, if there is one. -/
def openBracket : List Char → Option Char × List Char
  | c :: cs => if c = '[' ∨ c = '{' ∨ c = '(' then (some c, cs) else (none, c :: cs)
  | [] => (none, [])

/-- The bracket that closes `c`. -/
def closeBracket : Option Char → List Char
  | none => []
  | some '[' => [']']
  | some '{' => ['}']
  | some _ => [')']

/-- The first separator, if there is one. -/
def firstSeparator : List Char → Option Char × List Char
  | c :: cs => if c = ':' ∨ c = '-' then (some c, cs) else (none, c :: cs)
  | [] => (none, [])

/-- A repetition of the first separator, if there was one and it is repeated here. -/
def skipSeparator : Option Char → List Char → List Char
  | some x, c :: cs => if c = x then cs else c :: cs
  | _, cs => cs

/-- A spelling that `guid` accepts: its opening bracket, its separator and its digits. -/
structure Guid where
  bracket : Option Char
  separator : Option Char
  uuid : Uuid

/-- `string().guid()` without options: groups of 8, 4, 4, 4 and 12 digits in either case, a `:` or
`-` after the first group that may be repeated after the next three, all in matching brackets or
none. -/
def guid? (s : String) : Option Guid :=
  let (bracket, cs) := openBracket s.toList
  match h₁ : takeHex 8 cs with
  | none => none
  | some (d₁, cs₁) =>
    let (separator, cs₁) := firstSeparator cs₁
    match h₂ : takeHex 4 cs₁ with
    | none => none
    | some (d₂, cs₂) =>
      match h₃ : takeHex 4 (skipSeparator separator cs₂) with
      | none => none
      | some (d₃, cs₃) =>
        match h₄ : takeHex 4 (skipSeparator separator cs₃) with
        | none => none
        | some (d₄, cs₄) =>
          match h₅ : takeHex 12 (skipSeparator separator cs₄) with
          | none => none
          | some (d₅, cs₅) =>
            if cs₅ = closeBracket bracket then
              some ⟨bracket, separator, d₁ ++ d₂ ++ d₃ ++ d₄ ++ d₅, by
                simp [takeHex_length _ _ h₁, takeHex_length _ _ h₂, takeHex_length _ _ h₃, takeHex_length _ _ h₄,
                  takeHex_length _ _ h₅]⟩
            else none

/-! ## Which spellings both read -/

theorem skipHyphen_of_takeHex {n : Nat} {cs : List Char} {r : List (Fin 16) × List Char}
    (h : takeHex (n + 1) cs = some r) : skipHyphen cs = cs := by
  unfold skipHyphen
  split
  · simp [takeHex, show hexDigit? '-' = none by decide] at h
  · rfl

theorem skipHyphen_eq (cs : List Char) : skipHyphen cs = skipSeparator (some '-') cs := by
  cases cs with
  | nil => rfl
  | cons c cs =>
    by_cases hc : c = '-'
    · subst hc; simp [skipHyphen, skipSeparator]
    · simp only [skipSeparator, if_neg hc]
      unfold skipHyphen
      split
      · rename_i h; exact absurd (List.cons.inj h).1 hc
      · rfl

/-- A group of whole bytes, read digit by digit or byte by byte. -/
theorem readBytes_takeHex (n : Nat) : ∀ (m : Nat) (cs : List Char) {ds rest},
    takeHex (2 * (m + 1)) cs = some (ds, rest) →
    readBytes (n + m + 1) cs =
      (readBytes n (if n % 2 = 0 ∧ n ≠ 0 then skipHyphen rest else rest)).map fun p => (ds ++ p.1, p.2) := by
  intro m
  induction m with
  | zero =>
    intro cs ds rest h
    match cs with
    | [] => simp [takeHex] at h
    | [_] => simp [takeHex] at h
    | a :: b :: cs =>
      simp only [takeHex] at h
      split at h
      · rename_i x p hx hp
        split at hp
        · rename_i y q hy hq
          cases hq; cases hp; cases h
          simp only [readBytes, hx, hy]
          cases readBytes n _ <;> rfl
        · cases hp
      · cases h
  | succ m ih =>
    intro cs ds rest h
    rw [show 2 * (m + 1 + 1) = 2 * (m + 1) + 1 + 1 by omega] at h
    match cs with
    | [] => simp [takeHex] at h
    | [_] => simp [takeHex] at h
    | a :: b :: cs =>
      simp only [takeHex] at h
      split at h
      · rename_i x p hx hp
        split at hp
        · rename_i y q hy hq
          cases hp; cases h
          have hskip := skipHyphen_of_takeHex (n := 2 * m + 1) hq
          rw [show n + (m + 1) + 1 = (n + m + 1) + 1 by omega]
          simp only [readBytes, hx, hy, hskip, ite_self, ih cs hq]
          cases readBytes n _ <;> rfl
        · cases hp
      · cases h

/-- The spellings that PostgreSQL reads among those that `guid` accepts. -/
def Guid.readable (g : Guid) : Prop := (g.bracket = none ∨ g.bracket = some '{') ∧ g.separator ≠ some ':'

instance (g : Guid) : Decidable g.readable := inferInstanceAs (Decidable (_ ∧ _))

/-- The groups after the first, when the separator is a hyphen or absent. -/
theorem readBytes_group {n m : Nat} {separator : Option Char} {cs rest : List Char} {ds : List (Fin 16)}
    (hsep : separator = none ∨ separator = some '-') (hn : n % 2 = 0 ∧ n ≠ 0)
    (h : takeHex (2 * (m + 1)) cs = some (ds, rest)) {k : Nat} {p : List (Fin 16) × List Char}
    (hnext : takeHex (k + 1) (skipSeparator separator rest) = some p) :
    readBytes (n + m + 1) cs =
      (readBytes n (skipSeparator separator rest)).map fun p => (ds ++ p.1, p.2) := by
  rw [readBytes_takeHex n m cs h, if_pos hn]
  congr 2
  rcases hsep with rfl | rfl
  · exact skipHyphen_of_takeHex hnext
  · exact skipHyphen_eq rest

/-- The digits of an accepted spelling with a readable separator, read byte by byte. -/
theorem readBytes_of_groups {separator : Option Char} (hsep : separator = none ∨ separator = some '-')
    {cs cs₁ cs₂ cs₃ cs₄ cs₅ : List Char} {d₁ d₂ d₃ d₄ d₅ : List (Fin 16)}
    (h₁ : takeHex 8 cs = some (d₁, cs₁)) (h₂ : takeHex 4 (skipSeparator separator cs₁) = some (d₂, cs₂))
    (h₃ : takeHex 4 (skipSeparator separator cs₂) = some (d₃, cs₃))
    (h₄ : takeHex 4 (skipSeparator separator cs₃) = some (d₄, cs₄))
    (h₅ : takeHex 12 (skipSeparator separator cs₄) = some (d₅, cs₅)) :
    readBytes 16 cs = some (d₁ ++ d₂ ++ d₃ ++ d₄ ++ d₅, cs₅) := by
  rw [readBytes_group (n := 12) (m := 3) hsep (by decide) h₁ h₂,
    readBytes_group (n := 10) (m := 1) hsep (by decide) h₂ h₃,
    readBytes_group (n := 8) (m := 1) hsep (by decide) h₃ h₄,
    readBytes_group (n := 6) (m := 1) hsep (by decide) h₄ h₅,
    readBytes_takeHex 0 5 _ h₅]
  simp [readBytes]

theorem firstSeparator_eq (cs : List Char) :
    (firstSeparator cs).2 = skipSeparator (firstSeparator cs).1 cs ∧
      ((firstSeparator cs).1 = none ∨ (firstSeparator cs).1 = some '-' ∨
        (firstSeparator cs).1 = some ':' ∧ ∃ cs', cs = ':' :: cs') := by
  cases cs with
  | nil => simp [firstSeparator, skipSeparator]
  | cons c cs =>
    by_cases hc : c = ':' ∨ c = '-'
    · rcases hc with rfl | rfl <;> simp [firstSeparator, skipSeparator]
    · simp [firstSeparator, skipSeparator, hc]

theorem openBracket_eq (cs : List Char) :
    (openBracket cs = (none, cs) ∧ ∀ cs', cs ≠ '{' :: cs') ∨
      (∃ cs', cs = '{' :: cs' ∧ openBracket cs = (some '{', cs')) ∨
      ∃ c cs', (c = '[' ∨ c = '(') ∧ cs = c :: cs' ∧ openBracket cs = (some c, cs') := by
  cases cs with
  | nil => simp [openBracket]
  | cons c cs =>
    by_cases hb : c = '{'
    · subst hb; exact .inr (.inl ⟨cs, rfl, by simp [openBracket]⟩)
    · by_cases hc : c = '[' ∨ c = '('
      · exact .inr (.inr ⟨c, cs, hc, rfl, by simp only [openBracket]; rw [if_pos]; tauto⟩)
      · refine .inl ⟨by simp only [openBracket]; rw [if_neg]; tauto, ?_⟩
        rintro cs' h; exact hb (List.cons.inj h).1

/-- The groups of an accepted spelling. -/
theorem guid?_groups {s : String} {g : Guid} (h : guid? s = some g) :
    ∃ cs cs₁ cs₂ cs₃ cs₄ d₁ d₂ d₃ d₄ d₅, openBracket s.toList = (g.bracket, cs) ∧
      takeHex 8 cs = some (d₁, cs₁) ∧ g.separator = (firstSeparator cs₁).1 ∧
      takeHex 4 (skipSeparator g.separator cs₁) = some (d₂, cs₂) ∧
      takeHex 4 (skipSeparator g.separator cs₂) = some (d₃, cs₃) ∧
      takeHex 4 (skipSeparator g.separator cs₃) = some (d₄, cs₄) ∧
      takeHex 12 (skipSeparator g.separator cs₄) = some (d₅, closeBracket g.bracket) ∧
      g.uuid.digits = d₁ ++ d₂ ++ d₃ ++ d₄ ++ d₅ := by
  unfold guid? at h
  simp only at h
  split at h
  · cases h
  rename_i d₁ cs₁ h₁
  split at h
  · cases h
  rename_i d₂ cs₂ h₂
  split at h
  · cases h
  rename_i d₃ cs₃ h₃
  split at h
  · cases h
  rename_i d₄ cs₄ h₄
  split at h
  · cases h
  rename_i d₅ cs₅ h₅
  split at h
  · rename_i hclose
    cases h
    rw [(firstSeparator_eq cs₁).1] at h₂
    exact ⟨_, cs₁, cs₂, cs₃, cs₄, d₁, d₂, d₃, d₄, d₅, rfl, h₁, rfl, h₂, h₃, h₄, hclose ▸ h₅, rfl⟩
  · cases h

/-- A spelling that `guid` accepts is read by PostgreSQL, as the same identifier, exactly when it
stands in braces or no brackets and is not separated by colons. -/
theorem uuidIn_of_guid {s : String} {g : Guid} (h : guid? s = some g) :
    uuidIn s = if g.readable then some g.uuid else none := by
  obtain ⟨cs, cs₁, cs₂, cs₃, cs₄, d₁, d₂, d₃, d₄, d₅, hopen, h₁, hfirst, h₂, h₃, h₄, h₅, hd⟩ := guid?_groups h
  have hgroups : g.separator = none ∨ g.separator = some '-' →
      readBytes 16 cs = some (g.uuid.digits, closeBracket g.bracket) := by
    intro hsep; rw [readBytes_of_groups hsep h₁ h₂ h₃ h₄ h₅, hd]
  have hsep := (firstSeparator_eq cs₁).2
  rw [← hfirst] at hsep
  have hcolon : g.separator = some ':' → readBytes 16 cs = none := by
    intro hc
    obtain ⟨cs', rfl⟩ : ∃ cs', cs₁ = ':' :: cs' := by
      rcases hsep with hs | hs | hs
      · rw [hs] at hc; cases hc
      · rw [hs] at hc; cases hc
      · exact hs.2
    rw [readBytes_takeHex 12 3 _ h₁]
    simp [skipHyphen, readBytes_of_not_digit (show hexDigit? ':' = none by decide) 11]
  rcases openBracket_eq s.toList with ⟨ho, hne⟩ | ⟨cs', hs, ho⟩ | ⟨c, cs', hc, hs, ho⟩
  · -- no bracket
    rw [ho, Prod.mk.injEq] at hopen
    obtain ⟨hb, rfl⟩ := hopen
    by_cases hcol : g.separator = some ':'
    · rw [if_neg fun hr => hr.2 hcol]; exact uuidIn_eq_none hne (hcolon hcol)
    · rw [if_pos ⟨.inl hb.symm, hcol⟩]
      refine uuidIn_of_plain hne ?_
      rw [hgroups (by tauto), ← hb]; rfl
  · -- braces
    rw [ho, Prod.mk.injEq] at hopen
    obtain ⟨hb, rfl⟩ := hopen
    by_cases hcol : g.separator = some ':'
    · rw [if_neg fun hr => hr.2 hcol, uuidIn, hs]
      simp [readUuid_eq_none.2 (hcolon hcol)]
    · rw [if_pos ⟨.inr hb.symm, hcol⟩]
      refine uuidIn_of_brace hs ?_
      rw [hgroups (by tauto), ← hb]; rfl
  · -- another bracket
    rw [ho, Prod.mk.injEq] at hopen
    obtain ⟨hb, rfl⟩ := hopen
    have hr : ¬ g.readable := by
      rintro ⟨h0 | h0, -⟩ <;> rw [← hb] at h0
      · cases h0
      · cases h0; simp at hc
    rw [if_neg hr]
    refine uuidIn_eq_none ?_ ?_
    · intro cs'' h0
      rw [hs] at h0
      obtain ⟨rfl, -⟩ := List.cons.inj h0
      simp at hc
    · rw [hs]
      refine readBytes_of_not_digit ?_ 15 cs'
      rcases hc with rfl | rfl <;> decide

/-! ## How long an accepted spelling is -/

theorem takeHex_consumed : ∀ (n : Nat) (cs : List Char) {ds rest}, takeHex n cs = some (ds, rest) →
    cs.length = n + rest.length
  | 0, cs, ds, rest, h => by
    simp only [takeHex, Option.some.injEq, Prod.mk.injEq] at h
    simp [h.2]
  | n + 1, [], ds, rest, h => by simp [takeHex] at h
  | n + 1, c :: cs, ds, rest, h => by
    simp only [takeHex] at h
    split at h
    · rename_i d ds' rest' _ hr
      cases h
      have := takeHex_consumed n cs hr
      simp only [List.length_cons]; omega
    · cases h

theorem length_le_skipSeparator (x : Option Char) (cs : List Char) : cs.length ≤ (skipSeparator x cs).length + 1 := by
  unfold skipSeparator
  split
  · split <;> simp
  · omega

theorem closeBracket_length (c : Option Char) : (closeBracket c).length ≤ 1 := by
  unfold closeBracket
  split <;> simp

/-- Two brackets, four separators and 32 digits. -/
theorem guid?_length {s : String} {g : Guid} (h : guid? s = some g) : s.toList.length ≤ 38 := by
  obtain ⟨cs, cs₁, cs₂, cs₃, cs₄, d₁, d₂, d₃, d₄, d₅, hopen, h₁, -, h₂, h₃, h₄, h₅, -⟩ := guid?_groups h
  have hs : s.toList.length ≤ cs.length + 1 := by
    rcases openBracket_eq s.toList with ⟨ho, -⟩ | ⟨cs', hs, ho⟩ | ⟨c, cs', -, hs, ho⟩ <;>
      rw [ho, Prod.mk.injEq] at hopen
    · rw [hopen.2]; omega
    · rw [hs, hopen.2]; simp
    · rw [hs, hopen.2]; simp
  have e₁ := takeHex_consumed _ _ h₁
  have e₂ := takeHex_consumed _ _ h₂
  have e₃ := takeHex_consumed _ _ h₃
  have e₄ := takeHex_consumed _ _ h₄
  have e₅ := takeHex_consumed _ _ h₅
  have l₁ := length_le_skipSeparator g.separator cs₁
  have l₂ := length_le_skipSeparator g.separator cs₂
  have l₃ := length_le_skipSeparator g.separator cs₃
  have l₄ := length_le_skipSeparator g.separator cs₄
  have l₅ := closeBracket_length g.bracket
  omega

theorem hexDigit?_ascii {c : Char} {d : Fin 16} (h : hexDigit? c = some d) : c.toNat < 128 := by
  have hle : ∀ {x y : Char}, x ≤ y → y.toNat < 128 → x.toNat < 128 := fun hxy hy => Nat.lt_of_le_of_lt hxy hy
  unfold hexDigit? at h
  split at h
  · rename_i hc
    exact hle hc.2 (by decide)
  split at h
  · rename_i hc
    exact hle hc.2 (by decide)
  split at h
  · rename_i hc
    exact hle hc.2 (by decide)
  · cases h

/-- The characters before what is left are ASCII. -/
theorem takeHex_ascii : ∀ (n : Nat) (cs : List Char) {ds rest}, takeHex n cs = some (ds, rest) →
    (∀ c ∈ rest, c.toNat < 128) → ∀ c ∈ cs, c.toNat < 128
  | 0, cs, ds, rest, h, hrest => by
    cases h
    exact hrest
  | n + 1, [], ds, rest, h, hrest => by simp [takeHex] at h
  | n + 1, c :: cs, ds, rest, h, hrest => by
    simp only [takeHex] at h
    split at h
    · rename_i d ds' rest' hc hr
      cases h
      exact List.forall_mem_cons.2 ⟨hexDigit?_ascii hc, takeHex_ascii n cs hr hrest⟩
    · cases h

theorem skipSeparator_ascii {separator : Option Char} (hsep : ∀ x, separator = some x → x.toNat < 128) {cs : List Char}
    (h : ∀ c ∈ skipSeparator separator cs, c.toNat < 128) : ∀ c ∈ cs, c.toNat < 128 := by
  unfold skipSeparator at h
  split at h
  · rename_i x c cs
    split at h
    · rename_i hc
      exact List.forall_mem_cons.2 ⟨hc ▸ hsep x rfl, h⟩
    · exact h
  · exact h

theorem closeBracket_ascii (bracket : Option Char) : ∀ c ∈ closeBracket bracket, c.toNat < 128 := by
  unfold closeBracket
  split <;> simp

/-- Only ASCII characters are accepted. -/
theorem guid?_ascii {s : String} {g : Guid} (h : guid? s = some g) : ∀ c ∈ s.toList, c.toNat < 128 := by
  obtain ⟨cs, cs₁, cs₂, cs₃, cs₄, d₁, d₂, d₃, d₄, d₅, hopen, h₁, hfirst, h₂, h₃, h₄, h₅, -⟩ := guid?_groups h
  have hsep : ∀ x, g.separator = some x → x.toNat < 128 := by
    intro x hx
    rw [hfirst] at hx
    rcases (firstSeparator_eq cs₁).2 with h | h | ⟨h, -⟩ <;> rw [h] at hx <;> cases hx <;> decide
  have hcs : ∀ c ∈ cs, c.toNat < 128 :=
    takeHex_ascii 8 cs h₁ <| skipSeparator_ascii hsep <| takeHex_ascii 4 _ h₂ <| skipSeparator_ascii hsep <|
      takeHex_ascii 4 _ h₃ <| skipSeparator_ascii hsep <| takeHex_ascii 4 _ h₄ <| skipSeparator_ascii hsep <|
      takeHex_ascii 12 _ h₅ (closeBracket_ascii g.bracket)
  rcases openBracket_eq s.toList with ⟨ho, -⟩ | ⟨cs', hs, ho⟩ | ⟨c, cs', hc, hs, ho⟩ <;>
    rw [ho, Prod.mk.injEq] at hopen
  · rw [hopen.2]; exact hcs
  · rw [hs, hopen.2]; exact List.forall_mem_cons.2 ⟨by decide, hcs⟩
  · rw [hs, hopen.2]
    refine List.forall_mem_cons.2 ⟨?_, hcs⟩
    rcases hc with rfl | rfl <;> decide

end Uuid

end PaymentOrchestration.Lib
