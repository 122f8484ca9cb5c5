import UnitLedger.Binary64.Shortest
set_option autoImplicit false

/-! # Text of doubles

The shortest digits of a double, always in positional notation and without a fraction when it is
whole; of two equally near decimals the larger magnitude is written.
-/

namespace UnitLedger.Binary64

open Numeral

/-- The shortest decimal of `x` as it is written and as decimal arithmetic takes it up. -/
def Finite.written (x : Finite) : Finite.Digits := x.shortest .up

/-- The characters of `x`. -/
def Finite.print (x : Finite) : List Char :=
  let d := x.written
  let magnitude := positional d.digits d.exponent
  if x.negative then '-' :: magnitude else magnitude

/-- The characters of a double. -/
def print : Binary64 → List Char
  | finite x => x.print
  | infinite negative => (if negative then "-inf" else "inf").toList
  | nan => "NaN".toList

/-- `print` as a string. -/
def text (x : Binary64) : String := String.ofList x.print

end UnitLedger.Binary64
