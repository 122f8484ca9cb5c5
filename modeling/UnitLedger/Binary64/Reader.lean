import UnitLedger.Binary64.Basic
import UnitLedger.Text.Split
set_option autoImplicit false

/-! # Reading doubles

A decimal text stands for the nearest double.  Digits may have a point before, among or after them
and an exponent behind; infinity and "not a number" have names of their own, in any case of letters.
-/

namespace UnitLedger.Binary64

open Text

/-- Digits around a point, read as an integer and a number of fraction digits. -/
structure Literal where
  digits : Nat
  places : Nat
  deriving DecidableEq, Repr

/-- The literal of the digits before and after a point. -/
def Literal.ofSides (whole fraction : List Char) : Literal :=
  ⟨Nat.ofDigitChars 10 (whole ++ fraction) 0, fraction.length⟩

/-- The double nearest to a literal times `10 ^ exponent`. -/
def Literal.toBinary64 (l : Literal) (negative : Bool) (exponent : Int) : Binary64 :=
  ofDecimal negative l.digits (exponent - l.places)

/-- Takes a literal off the front of a text: digits, and after a point more digits.  There must be a
digit on one side of it. -/
def Literal.take? (cs : List Char) : Option (Literal × List Char) :=
  let whole := cs.takeWhile Char.isDigit
  let rest := cs.dropWhile Char.isDigit
  match rest with
  | '.' :: after =>
    let fraction := after.takeWhile Char.isDigit
    if whole = [] ∧ fraction = [] then none
    else some (Literal.ofSides whole fraction, after.dropWhile Char.isDigit)
  | _ => if whole = [] then none else some (Literal.ofSides whole [], rest)

/-- An exponent: nothing, or a letter, an optional sign and digits. -/
def readExponent? : List Char → Option Int
  | [] => some 0
  | c :: cs =>
    let (negative, digits) := splitSign cs
    if (c == 'e' || c == 'E') && digits != [] && digits.all Char.isDigit then
      let n : Int := Nat.ofDigitChars 10 digits 0
      some (if negative then -n else n)
    else none

/-- The double that a text spells. -/
def read? (cs : List Char) : Option Binary64 :=
  let (negative, rest) := splitSign cs
  match Literal.take? rest with
  | some (literal, exponent) =>
    (readExponent? exponent).map fun e => literal.toBinary64 negative e
  | none =>
    let name := rest.map Char.toLower
    if name = "inf".toList ∨ name = "infinity".toList then some (infinite negative)
    else if name = "nan".toList then some nan
    else none

/-- The double that `text` spells. -/
def ofText? (text : String) : Option Binary64 := read? text.toList

end UnitLedger.Binary64
