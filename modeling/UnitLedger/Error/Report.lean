import UnitLedger.Error.Basic
set_option autoImplicit false

/-! # Error reports

An error as a record of texts, for whoever shows it.
-/

namespace UnitLedger

/-- What is handed over about an error. -/
structure ErrorReport where
  code : String
  message : String
  suggestion : Option String
  severity : Severity
  deriving DecidableEq, Repr

namespace ErrorReport

/-- The report of an error. -/
def ofError (e : UnitError) : ErrorReport := ⟨e.code, e.message, e.suggestion, e.severity⟩

/-- A report on one line. -/
def text (r : ErrorReport) : String :=
  let line := "[" ++ r.code ++ "] " ++ r.message
  match r.suggestion with
  | none => line
  | some advice => line ++ " (suggestion: " ++ advice ++ ")"

end ErrorReport

end UnitLedger
