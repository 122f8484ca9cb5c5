import UnitLedger.Error.Basic
import UnitLedger.Text.Blank
import UnitLedger.Text.CaseMap
set_option autoImplicit false

/-! # Dimensions and unit systems

What kinds of quantity there are and the two families of units.  Both are read by name, in any case
and with blanks around it: `Dimension.ofText_name` says that a name reads back.
-/

namespace UnitLedger

/-- A kind of quantity.  Units can be compared only within one. -/
inductive Dimension where
  | length
  | area
  | volume
  | weight
  | count
  deriving DecidableEq, Repr

/-- A family of units. -/
inductive UnitSystem where
  | metric
  | imperial
  deriving DecidableEq, Repr

/-- The key under which names are compared: trimmed and in lower case. -/
def nameKey (text : String) : List Char := Text.lowerCase.text (Text.trim text.toList)

namespace Dimension

/-- The dimensions in the order in which they are presented. -/
def all : List Dimension := [length, area, volume, weight, count]

theorem mem_all (d : Dimension) : d ∈ all := by
  cases d <;> decide

def name : Dimension → String
  | length => "length"
  | area => "area"
  | volume => "volume"
  | weight => "weight"
  | count => "count"

/-- Symbol of the unit in which quantities of the dimension are stored. -/
def baseSymbol : Dimension → String
  | length => "mm"
  | area => "mm2"
  | volume => "mm3"
  | weight => "mg"
  | count => "ea"

/-- The power of length that the dimension is, if it is one. -/
def lengthPower? : Dimension → Option Nat
  | length => some 1
  | area => some 2
  | volume => some 3
  | weight | count => none

def isCount (d : Dimension) : Bool := d = count

/-- The dimension that a text names, if any. -/
def named? (text : String) : Option Dimension :=
  all.find? fun d => d.name.toList = nameKey text

theorem named?_name (d : Dimension) : named? d.name = some d := by
  cases d <;> decide

/-- The dimension that a text names. -/
def ofText (text : String) : Except UnitError Dimension :=
  match named? text with
  | some d => .ok d
  | none => .error (.unknownDimension text)

theorem ofText_name (d : Dimension) : ofText d.name = .ok d := by
  simp [ofText, named?_name]

end Dimension

namespace UnitSystem

def all : List UnitSystem := [metric, imperial]

def name : UnitSystem → String
  | metric => "metric"
  | imperial => "imperial"

/-- The system that a text names, if any. -/
def named? (text : String) : Option UnitSystem :=
  all.find? fun s => s.name.toList = nameKey text

theorem named?_name (s : UnitSystem) : named? s.name = some s := by
  cases s <;> decide

/-- The system that a text names. -/
def ofText (text : String) : Except UnitError UnitSystem :=
  match named? text with
  | some s => .ok s
  | none => .error (.configuration ("unknown unit system '" ++ text ++ "'"))

theorem ofText_name (s : UnitSystem) : ofText s.name = .ok s := by
  simp [ofText, named?_name]

end UnitSystem

end UnitLedger
