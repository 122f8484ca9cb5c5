import UnitLedger.Decimal.Basic
set_option autoImplicit false

/-! # Decimal text in positional notation

With a given number of fraction digits a number is cut, not rounded.  The text is made from the
digits of the significand: they are brought to units of the last place by zeros behind them or by
dropping digits (`unitDigits`), they get zeros in front (`shownDigits`), and they are split where the
point goes (`fixed`).  A minus stands only before a text that shows a digit other than zero.
-/

namespace UnitLedger.Decimal

/-- The digits of the magnitude of `x` in units of `10 ^ -places`.  Digits behind the unit are
dropped, and where these are all there is a zero. -/
def unitDigits (x : Decimal) (places : Nat) : List Char :=
  let digits := Nat.toDigits 10 x.significand.natAbs
  let shift := x.exponent + places
  if 0 ≤ shift then digits ++ List.replicate shift.toNat '0'
  else if digits.length ≤ shift.natAbs then ['0']
  else digits.take (digits.length - shift.natAbs)

/-- The digits with zeros in front, so that there is one before the last `places`. -/
def shownDigits (x : Decimal) (places : Nat) : List Char :=
  (x.unitDigits places).leftpad (places + 1) '0'

/-- The text of `x` with exactly `places` fraction digits; further digits are cut. -/
def fixed (x : Decimal) (places : Nat) : List Char :=
  let digits := x.shownDigits places
  let (whole, fraction) := digits.splitAt (digits.length - places)
  let sign := if x.isNegative && digits.any (· != '0') then ['-'] else []
  sign ++ whole ++ if 0 < places then '.' :: fraction else []

/-- Number of fraction digits of the plain text.  It is kept in a 32-bit word. -/
def plainPlaces (x : Decimal) : Nat := (min x.exponent 0).natAbs % 2 ^ 32

/-- The text of `x` with the fraction digits it has. -/
def plain (x : Decimal) : List Char := x.fixed x.plainPlaces

/-- `fixed` as a string. -/
def fixedText (x : Decimal) (places : Nat) : String := String.ofList (x.fixed places)

/-- `plain` as a string. -/
def plainText (x : Decimal) : String := String.ofList x.plain

end UnitLedger.Decimal
