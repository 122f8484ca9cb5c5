import UnitLedger.Decimal.Basic
set_option autoImplicit false

/-! # Errors

Why a request about units and quantities is refused, with the wording, the code, the advice and the
severity of each cause.
-/

namespace UnitLedger

/-- Why a request is refused. -/
inductive UnitError where
  /-- The symbol names no unit, or none of the dimension asked for. -/
  | unknownUnit (dimension : Option String) (symbol : String)
  /-- The symbol names a unit of another dimension. -/
  | dimensionMismatch (expected found symbol : String)
  /-- The amount is not finite or cannot be represented. -/
  | invalidQuantity (detail : String)
  | unknownDimension (text : String)
  | configuration (detail : String)
  | number (fault : Decimal.Fault)
  deriving DecidableEq, Repr

/-- How bad an error is. -/
inductive Severity where
  /-- The operation failed. -/
  | error
  /-- Nothing can be done with the present settings. -/
  | fatal
  deriving DecidableEq, Repr

namespace Severity

def all : List Severity := [error, fatal]

def name : Severity → String
  | error => "error"
  | fatal => "fatal"

end Severity

namespace UnitError

/-- The wording of an error. -/
def message : UnitError → String
  | unknownUnit none symbol => "unknown unit '" ++ symbol ++ "'"
  | unknownUnit (some dimension) symbol => "unknown unit '" ++ symbol ++ "' for " ++ dimension
  | dimensionMismatch expected found symbol =>
    "unit '" ++ symbol ++ "' is a " ++ found ++ " unit, expected a " ++ expected ++ " unit"
  | invalidQuantity detail => "invalid quantity: " ++ detail
  | unknownDimension text => "unknown dimension '" ++ text ++ "'"
  | configuration detail => "invalid configuration: " ++ detail
  | number fault => fault.message

/-- The code of an error, for programs. -/
def code : UnitError → String
  | unknownUnit _ _ => "UNKNOWN_UNIT"
  | dimensionMismatch _ _ _ => "DIMENSION_MISMATCH"
  | invalidQuantity _ => "INVALID_QUANTITY"
  | unknownDimension _ => "UNKNOWN_DIMENSION"
  | configuration _ => "CONFIG_ERROR"
  | number (.unreadable _) => "PARSE_ERROR"
  | number .divisionByZero => "DIV_ZERO"
  | number (.outsideDomain _) => "DOMAIN_ERROR"
  | number .overflow => "OVERFLOW"

/-- What to do about an error, where there is advice to give. -/
def suggestion : UnitError → Option String
  | unknownUnit (some dimension) _ =>
    some ("Pick one of the " ++ dimension ++ " units offered for this field")
  | unknownUnit none _ => some "Check the unit spelling"
  | dimensionMismatch expected _ _ => some ("Use a " ++ expected ++ " unit for this quantity")
  | invalidQuantity _ => some "Enter a finite number"
  | unknownDimension _ => some "Use one of: length, area, volume, weight, count"
  | configuration _ => none
  | number _ => none

/-- Only wrong settings are fatal. -/
def severity : UnitError → Severity
  | configuration _ => .fatal
  | _ => .error

theorem severity_eq_fatal_iff (e : UnitError) :
    e.severity = .fatal ↔ ∃ detail, e = .configuration detail := by
  cases e <;> simp [severity]

end UnitError

/-- A number fault as an error. -/
def liftFault {α : Type} (r : Except Decimal.Fault α) : Except UnitError α :=
  r.mapError .number

@[simp] theorem liftFault_ok {α : Type} (a : α) : liftFault (.ok a) = .ok a := rfl

@[simp] theorem liftFault_error {α : Type} (f : Decimal.Fault) :
    liftFault (.error f : Except Decimal.Fault α) = .error (.number f) := rfl

end UnitLedger
