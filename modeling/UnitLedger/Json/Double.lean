import UnitLedger.Binary64.Shortest
import UnitLedger.Json.Value
set_option autoImplicit false

/-! # Doubles in JSON

A finite double is written with its shortest digits, of two equally near decimals the even one.
Moderate magnitudes are positional and keep a fraction digit; others have one digit before the point
and an exponent.  Any number literal is read as the nearest double, if that is finite.
-/

namespace UnitLedger.Json

open Binary64 Numeral

/-- The exponents of the first digit with which a double is written positionally. -/
def isPositional (leading : Int) : Bool := -5 ≤ leading && leading ≤ 15

/-- The literal of a magnitude in positional notation. -/
def positionalLiteral (negative : Bool) (d : Finite.Digits) : Number :=
  let scaled := d.digits * 10 ^ d.exponent.toNat
  let places := (-d.exponent).toNat
  ⟨negative, Nat.toDigits 10 (scaled / 10 ^ places),
    if places = 0 then ['0'] else padded places (scaled % 10 ^ places), none⟩

/-- The literal of a magnitude with one digit before the point and an exponent. -/
def exponentLiteral (negative : Bool) (d : Finite.Digits) (leading : Int) : Number :=
  let digits := Nat.toDigits 10 d.digits
  ⟨negative, digits.take 1, digits.drop 1, some leading⟩

/-- The literal of a double. -/
def literalOf (x : Finite) : Number :=
  let d := x.shortest .toEven
  let leading := d.exponent + digitCount d.digits - 1
  if d.digits = 0 ∨ isPositional leading then positionalLiteral x.negative d
  else exponentLiteral x.negative d leading

/-- A double as a value. -/
def Value.ofDouble (x : Finite) : Value := .number (literalOf x)

/-- The double nearest to a literal. -/
def Number.nearest (n : Number) : Binary64 :=
  ofDecimal n.negative (Nat.ofDigitChars 10 (n.whole ++ n.fraction) 0)
    (n.exponent.getD 0 - n.fraction.length)

/-- The double that a value gives. -/
def Value.double? : Value → Option Finite
  | .number n =>
    match n.nearest with
    | finite x => some x
    | _ => none
  | _ => none

end UnitLedger.Json
