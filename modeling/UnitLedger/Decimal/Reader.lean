import UnitLedger.Decimal.Basic
import UnitLedger.Text.Blank
import UnitLedger.Text.Split
set_option autoImplicit false

/-! # Reading decimal numbers

Two spellings are read.  A text with an exponent letter and no point before it is a signed integer
and an exponent.  Any other text is a sign, digits with at most one point, and an optional exponent
after the last `e`, `E` or `@`.  Underscores may stand among digits.  The value is rounded to the
working precision.
-/

namespace UnitLedger.Decimal

open Text

/-! ## Integers -/

/-- A digit or an underscore. -/
def isDigitOrGap (c : Char) : Bool := c.isDigit || c == '_'

/-- Digits with underscores among them; at least one character. -/
def readDigits? (cs : List Char) : Option Nat :=
  if cs ≠ [] ∧ cs.all isDigitOrGap then
    some (Nat.ofDigitChars 10 (cs.filter (· != '_')) 0)
  else none

/-- Digits after an optional plus. -/
def readNatural? : List Char → Option Nat
  | '+' :: cs => readDigits? cs
  | cs => readDigits? cs

/-- The integer of a sign and a magnitude. -/
def signed (negative : Bool) (magnitude : Nat) : Int :=
  if negative then -(magnitude : Int) else magnitude

/-- Digits after an optional sign. -/
def readInteger? (cs : List Char) : Option Int :=
  let (negative, digits) := splitSign cs
  (readDigits? digits).map (signed negative)

/-- The exponents that can be written: those of a signed 64-bit word. -/
def exponentRange (e : Int) : Bool := -2 ^ 63 ≤ e && e < 2 ^ 63

theorem exponentRange_iff (e : Int) : exponentRange e = true ↔ -2 ^ 63 ≤ e ∧ e < 2 ^ 63 := by
  rw [exponentRange, Bool.and_eq_true, decide_eq_true_iff, decide_eq_true_iff]

/-- Plain digits after an optional sign, within the range of exponents. -/
def readExponent? (cs : List Char) : Option Int :=
  let (negative, digits) := splitSign cs
  if digits ≠ [] ∧ digits.all Char.isDigit then
    some (signed negative (Nat.ofDigitChars 10 digits 0)) |>.filter exponentRange
  else none

/-! ## Numbers with a point -/

/-- One side of a point; nothing there counts as zero. -/
def readSide? (cs : List Char) : Option Nat :=
  if cs = [] then some 0 else readNatural? cs

/-- Digits with at most one point, as an integer and the number of fraction digits.  Every
character of the fraction but an underscore counts as a digit of it; a fraction of value zero has
no digits. -/
def readMantissa? (cs : List Char) : Option (Nat × Nat) :=
  match splitFirst (· == '.') cs with
  | none => (readNatural? cs).map fun n => (n, 0)
  | some ([], []) => none
  | some (whole, fraction) => do
    let w ← readSide? whole
    let f ← readSide? fraction
    if f = 0 then some (w, 0)
    else
      let places := (fraction.filter (· != '_')).length
      some (w * 10 ^ places + f, places)

/-- A character that can start an exponent after a number with a point. -/
def isExponentMark (c : Char) : Bool := c == 'e' || c == 'E' || c == '@'

/-- A number with an optional point and an optional exponent. -/
def readPointed? (cs : List Char) : Option Decimal := do
  let (negative, rest) := splitSign cs
  let (mantissa, exponent) ←
    match splitLast isExponentMark rest with
    | none => some (rest, 0)
    | some (mantissa, digits) => (readExponent? digits).map fun e => (mantissa, e)
  let (n, places) ← readMantissa? mantissa
  some (rounded (signed negative n) (exponent - places) workingPrecision)

/-! ## Either spelling -/

/-- An integer with an exponent. -/
def readScaled? (mantissa digits : List Char) : Option Decimal := do
  let n ← readInteger? mantissa
  let e ← readExponent? digits
  some (rounded n e workingPrecision)

/-- The number that a text without blanks around it spells. -/
def read? (cs : List Char) : Option Decimal :=
  match splitFirst (fun c => c == 'e' || c == 'E') cs with
  | none => readPointed? cs
  | some (mantissa, digits) =>
    if mantissa.contains '.' then readPointed? cs else readScaled? mantissa digits

/-- The number that `text` spells, blanks around it aside. -/
def ofText (text : String) : Except Fault Decimal :=
  let cs := trim text.toList
  match read? cs with
  | some x => .ok x
  | none => .error (.unreadable (String.ofList cs))

end UnitLedger.Decimal
