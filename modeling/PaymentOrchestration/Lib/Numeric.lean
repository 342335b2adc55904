/-
JavaScript's `Number(text)`: white space is cut off, what is left is a decimal, hexadecimal, octal or binary
literal, and its value is rounded to the nearest binary64 number, ties to even. A finite number is the
rational it stands for, so the two zeros are one value.
-/
import Mathlib.Data.Rat.Defs
import Mathlib.Algebra.Order.Ring.Rat

namespace PaymentOrchestration.Lib

/-- A value of type `number`. -/
inductive Numeric
  | nan
  | infinite (neg : Bool)
  | finite (q : Rat)
deriving DecidableEq

namespace Numeric

/-! ## Rounding -/

/-- The integer nearest to `a / b`, ties to even. -/
def roundEven (a b : Nat) : Nat :=
  if b < 2 * (a % b) ∨ (2 * (a % b) = b ∧ (a / b) % 2 = 1) then a / b + 1 else a / b

/-- The exponent `e` with `2 ^ e ≤ a / b < 2 ^ (e + 1)`. -/
def binade (a b : Nat) : Int :=
  let e : Int := (a.log2 : Int) - b.log2
  if b * 2 ^ e.toNat ≤ a * 2 ^ (-e).toNat then e else e - 1

/-- The multiple of `2 ^ e` nearest to `a / b`. -/
def roundTo (a b : Nat) (e : Int) : Rat :=
  if 0 ≤ e then (roundEven a (b * 2 ^ e.toNat) * 2 ^ e.toNat : Nat)
  else mkRat (roundEven (a * 2 ^ (-e).toNat) b) (2 ^ (-e).toNat)

/-- The binary64 number nearest to `a / b`. -/
def ofRatio (neg : Bool) (a b : Nat) : Numeric :=
  let q := roundTo a b (max (binade a b) (-1022) - 52)
  if 2 ^ 1024 ≤ q then infinite neg else finite (if neg then -q else q)

/-! ## Literals -/

def isSpace (c : Char) : Bool :=
  c.toNat ∈ [0x9, 0xA, 0xB, 0xC, 0xD, 0x20, 0xA0, 0x1680, 0x2028, 0x2029, 0x202F, 0x205F, 0x3000, 0xFEFF] ||
    (0x2000 ≤ c.toNat && c.toNat ≤ 0x200A)

def trim (cs : List Char) : List Char := ((cs.dropWhile isSpace).reverse.dropWhile isSpace).reverse

/-- The value of a digit. -/
def digit? (c : Char) : Option Nat :=
  if '0' ≤ c ∧ c ≤ '9' then some (c.toNat - 48)
  else if 'a' ≤ c ∧ c ≤ 'f' then some (c.toNat - 87)
  else if 'A' ≤ c ∧ c ≤ 'F' then some (c.toNat - 55)
  else none

/-- The number a non-empty row of digits below `base` stands for. -/
def naturalIn? (base : Nat) : List Char → Option Nat
  | [] => none
  | cs => cs.foldlM (fun n c => ((digit? c).filter (· < base)).map fun d => base * n + d) 0

def isDigit (c : Char) : Bool := '0' ≤ c && c ≤ '9'

/-- An exponent, or nothing. -/
def exponent? : List Char → Option Int
  | [] => some 0
  | e :: cs =>
    if e = 'e' ∨ e = 'E' then
      match cs with
      | '+' :: cs => (naturalIn? 10 cs).map Int.ofNat
      | '-' :: cs => (naturalIn? 10 cs).map fun n => -Int.ofNat n
      | cs => (naturalIn? 10 cs).map Int.ofNat
    else none

/-- A decimal literal without its sign. -/
def decimal? (neg : Bool) (cs : List Char) : Option Numeric := do
  let (integer, cs) := cs.span isDigit
  let (fraction, cs) := match cs with
    | '.' :: cs => cs.span isDigit
    | cs => ([], cs)
  let n ← naturalIn? 10 (integer ++ fraction)
  let e ← exponent? cs
  let e := e - fraction.length
  return if n = 0 then finite 0 else ofRatio neg (n * 10 ^ e.toNat) (10 ^ (-e).toNat)

def unsigned? (neg : Bool) (cs : List Char) : Option Numeric :=
  if cs = "Infinity".toList then some (infinite neg) else decimal? neg cs

/-- A literal that is not decimal has no sign. -/
def literal? : List Char → Option Numeric
  | '0' :: 'x' :: cs | '0' :: 'X' :: cs => (naturalIn? 16 cs).map fun n => if n = 0 then finite 0 else ofRatio false n 1
  | '0' :: 'o' :: cs | '0' :: 'O' :: cs => (naturalIn? 8 cs).map fun n => if n = 0 then finite 0 else ofRatio false n 1
  | '0' :: 'b' :: cs | '0' :: 'B' :: cs => (naturalIn? 2 cs).map fun n => if n = 0 then finite 0 else ofRatio false n 1
  | '+' :: cs => unsigned? false cs
  | '-' :: cs => unsigned? true cs
  | cs => unsigned? false cs

/-- `Number(text)`. -/
def ofText (text : String) : Numeric :=
  match trim text.toList with
  | [] => finite 0
  | cs => (literal? cs).getD nan

example : ofText " 2147483648\n" = finite 2147483648 ∧ ofText "5e-1" = finite (1 / 2) ∧ ofText "0x10" = finite 16 ∧
    ofText "9007199254740993" = finite 9007199254740992 ∧ ofText "1e400" = infinite false ∧ ofText "12abc" = nan := by
  decide +kernel

end Numeric

end PaymentOrchestration.Lib
