import UnitLedger.Binary64.Printer
import UnitLedger.Decimal.Printer
set_option autoImplicit false

/-! # Between decimals and doubles

A double becomes the decimal that is written for it, so `0.1` becomes exactly one tenth; a decimal
becomes the double nearest to its value.  Only finite numbers pass either way.
-/

namespace UnitLedger.Decimal

open Binary64

/-- The decimal written for `x`. -/
def ofFinite (x : Finite) : Decimal :=
  let d := x.written
  rounded (if x.negative then -(d.digits : Int) else d.digits) d.exponent workingPrecision

/-- The decimal written for a double that is finite. -/
def ofBinary64 : Binary64 → Except Fault Decimal
  | finite x => .ok (ofFinite x)
  | x => .error (.outsideDomain ("non-finite value " ++ x.text))

/-- The double nearest to the value of `x`, infinite where that is too large.  A negative number too
small for a double gives negative zero. -/
def toBinary64 (x : Decimal) : Binary64 :=
  ofDecimal x.isNegative x.significand.natAbs x.exponent

/-- The double nearest to the value of `x`, if it is finite. -/
def toFinite? (x : Decimal) : Option Finite :=
  match x.toBinary64 with
  | finite y => some y
  | _ => none

/-- A number is shown as the nearest double, and with all its digits beyond the doubles. -/
def text (x : Decimal) : String :=
  match x.toFinite? with
  | some y => String.ofList y.print
  | none => x.plainText

end UnitLedger.Decimal
