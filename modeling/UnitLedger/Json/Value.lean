import UnitLedger.Numeral
set_option autoImplicit false

/-! # JSON values

Values as they stand in a text: a number keeps its digits, and an object its members in order, a
repeated name included.  A string whose escapes name no text, because they give half of a surrogate
pair, is kept apart; such a string may stand where nobody reads it.
-/

namespace UnitLedger.Json

/-- A number literal: digits before and after the point, and the exponent if there is one. -/
structure Number where
  negative : Bool
  whole : List Char
  fraction : List Char
  exponent : Option Int
  deriving DecidableEq, Repr

/-- The literal has neither a point nor an exponent. -/
def Number.isPlain (n : Number) : Bool := n.fraction = [] && n.exponent = none

/-- A string literal; `none` if it names no text. -/
abbrev Literal := Option (List Char)

/-- A JSON value. -/
inductive Value where
  | null
  | bool (b : Bool)
  | number (n : Number)
  | string (s : Literal)
  | array (elements : List Value)
  | object (members : List (Literal × Value))
  deriving Repr

/-- The value of a text. -/
def Value.ofText (s : String) : Value := .string (some s.toList)

/-- An object with the given members. -/
def Value.ofMembers (members : List (String × Value)) : Value :=
  .object (members.map fun m => (some m.1.toList, m.2))

/-- The value of an integer. -/
def Value.ofInt (n : Int) : Value :=
  .number ⟨n < 0, Nat.toDigits 10 n.natAbs, [], none⟩

end UnitLedger.Json
