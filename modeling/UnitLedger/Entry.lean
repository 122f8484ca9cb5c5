import UnitLedger.Binary64.Reader
import UnitLedger.Quantity
import UnitLedger.Text.Alphabet
set_option autoImplicit false

/-! # Entry of quantities as free text

An entry such as `10 kg`, `5'` or `1,250` is a number and perhaps a unit.  Commas count for nothing.
The number is the longest one that stands at the front; the rest is a unit token or nothing.  Which
dimension the field has is not known here: only the family of the unit is told.
-/

namespace UnitLedger

open Registry (builtin)

/-- The family of a typed unit.  Bare numbers, counts and unknown units are `each`. -/
inductive EntrySystem where
  | metric
  | imperial
  | each
  deriving DecidableEq, Repr

namespace EntrySystem

def all : List EntrySystem := [metric, imperial, each]

def name : EntrySystem → String
  | metric => "metric"
  | imperial => "imperial"
  | each => "each"

def ofSystem : UnitSystem → EntrySystem
  | .metric => metric
  | .imperial => imperial

end EntrySystem

/-- A number and the unit token typed behind it, in upper case. -/
structure Entry where
  quantity : Binary64.Finite
  unit : Option String
  system : EntrySystem
  deriving DecidableEq, Repr

namespace Entry

open Text Binary64

/-! ## The number -/

/-- The number at the front of a text and the rest: a sign, digits, and digits after a point; there
must be a digit. -/
def takeNumber? (cs : List Char) : Option (Binary64 × List Char) :=
  let (negative, digits) := splitSign cs
  (Literal.take? digits).map fun (literal, rest) => (literal.toBinary64 negative 0, rest)

/-! ## The unit token -/

/-- The unit that a quotation mark or prime stands for. -/
def quoteUnit? (token : List Char) : Option (List Char) :=
  if token = ['"'] ∨ token = [Char.ofNat 39, Char.ofNat 39] ∨ token = ['″'] then
    some "INCH".toList
  else if token = [Char.ofNat 39] ∨ token = ['′'] then some "FT".toList
  else none

/-- A character that a unit token may hold after its first. -/
def isTokenChar (c : Char) : Bool :=
  isAlphanumeric c || c == '²' || c == '³' || c == '^' || c == '_' || c == '-' || c == ' '

/-- A letter, and after it letters, numbers and joining characters. -/
def isWord : List Char → Bool
  | [] => false
  | c :: cs => isAlphabetic c && cs.all isTokenChar

/-- A word is a unit token, but with a digit or a space in it only if the registry knows it. -/
def isUnitWord (token : List Char) : Bool :=
  isWord token &&
    (!token.any (fun c => c.isDigit || c == ' ') || (builtin.find? (String.ofList token)).isSome)

/-- The unit that a token names, in upper case. -/
def tokenUnit? (token : List Char) : Option (List Char) :=
  match quoteUnit? token with
  | some unit => some unit
  | none => if isUnitWord token then some (upperCase.text token) else none

/-- The family of a unit as the registry knows it; an unknown unit is of none. -/
def registeredSystem (unit : String) : EntrySystem :=
  match builtin.find? unit with
  | some u => if u.dimension.isCount then .each else .ofSystem u.system
  | none => .each

/-- The units typed most often, whose family is told without the registry. -/
def commonSystem? (unit : String) : Option EntrySystem :=
  if unit ∈ ["KG", "G", "MG"] then some .metric
  else if unit ∈ ["INCH", "FT"] then some .imperial
  else none

/-- The family of a unit in upper case. -/
def classify (unit : String) : EntrySystem := (commonSystem? unit).getD (registeredSystem unit)

/-! ## The entry -/

/-- The text that is read: without blanks at the ends and without commas. -/
def clean (text : String) : List Char := (trim text.toList).filter (· != ',')

/-- What a text says, if it starts with a number that a double can hold and goes on with a unit
token or nothing. -/
def parse? (text : String) : Option Entry :=
  match takeNumber? (clean text) with
  | some (.finite quantity, rest) =>
    let token := trim rest
    if token = [] then some ⟨quantity, none, .each⟩
    else
      (tokenUnit? token).map fun unit =>
        let unit := String.ofList unit
        ⟨quantity, some unit, classify unit⟩
  | _ => none

/-- Stores an entry for a field of the dimension.  A bare number is a number of the default unit. -/
def store (e : Entry) (d : Dimension) (defaultUnit : String) : Except UnitError StoredQuantity :=
  StoredQuantity.ofValue d (.finite e.quantity) (e.unit.getD defaultUnit)

end Entry

end UnitLedger
