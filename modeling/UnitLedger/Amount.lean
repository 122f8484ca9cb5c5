import UnitLedger.Decimal.Binary
import UnitLedger.Decimal.Rounding
import UnitLedger.Error.Basic
set_option autoImplicit false

/-! # Amounts

An amount enters as a double, is computed with as a decimal, and leaves as a double or as an integer
to be stored.  Each passage is refused with an error when the amount does not fit.
-/

namespace UnitLedger.Amount

/-- The decimal written for a double that someone entered. -/
def enter : Binary64 → Except UnitError Decimal
  | .finite x => .ok (Decimal.ofFinite x)
  | x => .error (.invalidQuantity (x.text ++ " is not a finite number"))

/-- The double nearest to `x`, with the words for an amount beyond the doubles. -/
def leave (x : Decimal) (detail : String) : Except UnitError Binary64.Finite :=
  match x.toFinite? with
  | some y => .ok y
  | none => .error (.invalidQuantity detail)

/-- The double nearest to a computed amount. -/
def toDouble (x : Decimal) : Except UnitError Binary64.Finite :=
  leave x (x.text ++ " is outside the f64 range")

/-- The nearest integer, a half going away from zero, if it can be stored. -/
def roundToInteger (x : Decimal) : Except UnitError Int64 :=
  match x.roundHalfAway.toInt64? with
  | some n => .ok n
  | none => .error (.invalidQuantity (x.text ++ " is outside the storable range"))

/-- The decimal written for `x` rounded to `places` fraction digits, as a double again. -/
def roundToPlaces (x : Binary64) (places : Nat) : Except UnitError Binary64.Finite := do
  let exact ← liftFault (Decimal.ofBinary64 x)
  let rounded ← liftFault (exact.roundPlaces places)
  leave rounded (x.text ++ " cannot be represented after rounding")

end UnitLedger.Amount
