import UnitLedger.Format
import UnitLedger.Json.Record
set_option autoImplicit false

/-! # Sessions

A session holds one value of each kind and works on them step by step.  A step reads its operands in
the order in which they are named; one that fails changes nothing.  Before anything is set the
options are the standard ones and every other value is missing.
-/

namespace UnitLedger

/-- Why options were refused. -/
inductive DisplayOptions.Fault where
  /-- The text is no record of options. -/
  | undecodable
  | invalid (e : UnitError)
  deriving DecidableEq, Repr

/-- The options of a JSON text, if they are allowed. -/
def DisplayOptions.ofJson (text : String) : Except DisplayOptions.Fault DisplayOptions :=
  match Json.displayOptions.read? text with
  | none => .error .undecodable
  | some o => o.validate.mapError .invalid

/-- The values that a session holds. -/
structure Session where
  stored : Option StoredQuantity
  display : Option DisplayQuantity
  price : Option UnitPrice
  parsed : Option Entry
  total : Option Binary64.Finite
  options : DisplayOptions
  deriving DecidableEq, Repr

namespace Session

/-- A session in which nothing has been set. -/
def initial : Session := ⟨none, none, none, none, none, .standard⟩

/-- What can be asked of a session.  Dimensions are given by name and units by symbol. -/
inductive Step where
  | store (dimension : String) (value : Binary64) (unit : String)
  | set (dimension : String) (baseValue : Int64)
  | zero (dimension : String)
  | add (dimension : String) (baseValue : Int64)
  | addValue (value : Binary64) (unit : String)
  | showIn (unit : String)
  | display (dimension : String) (value : Binary64) (unit : String)
  | convert (unit : String)
  | restore
  | parse (text : String)
  | storeParsed (dimension : String) (defaultUnit : Option String)
  | price (dimension : String) (price : Binary64) (unit : String)
  | total
  | perUnit (unit : String)
  | options (json : String)
  | format (unit : String)
  | formatDisplay
  | money (amount : Binary64)
  | moneyTotal
  deriving DecidableEq, Repr

/-- What a step answers. -/
inductive Answer where
  | stored (q : StoredQuantity)
  | display (q : DisplayQuantity)
  | price (p : UnitPrice)
  | entry (e : Option Entry)
  | double (x : Binary64)
  | options (o : DisplayOptions)
  | text (s : String)
  deriving DecidableEq, Repr

/-- Why a step failed. -/
inductive Fault where
  /-- A value that the step works on has not been set. -/
  | missing
  | error (e : UnitError)
  | options (f : DisplayOptions.Fault)
  deriving DecidableEq, Repr

/-- The result of a step: the session after it and its answer. -/
abbrev Outcome := Except Fault (Session × Answer)

/-- A value that has to be set. -/
def need {α : Type} : Option α → Except Fault α
  | some a => .ok a
  | none => .error .missing

/-- An error of the library as a fault. -/
def attempt {α : Type} (r : Except UnitError α) : Except Fault α := r.mapError .error

def putStored (s : Session) (q : StoredQuantity) : Session × Answer :=
  ({ s with stored := some q }, .stored q)

def putDisplay (s : Session) (q : DisplayQuantity) : Session × Answer :=
  ({ s with display := some q }, .display q)

/-- One step. -/
def step (s : Session) : Step → Outcome
  | .store dimension value unit => do
    let d ← attempt (Dimension.ofText dimension)
    let q ← attempt (StoredQuantity.ofValue d value unit)
    return s.putStored q
  | .set dimension baseValue => do
    let d ← attempt (Dimension.ofText dimension)
    return s.putStored ⟨baseValue, d⟩
  | .zero dimension => do
    let d ← attempt (Dimension.ofText dimension)
    return s.putStored (.zero d)
  | .add dimension baseValue => do
    let stored ← need s.stored
    let d ← attempt (Dimension.ofText dimension)
    let sum ← attempt (stored.checkedAdd ⟨baseValue, d⟩)
    return s.putStored sum
  | .addValue value unit => do
    let stored ← need s.stored
    let q ← attempt (StoredQuantity.ofValue stored.dimension value unit)
    let sum ← attempt (stored.checkedAdd q)
    return s.putStored sum
  | .showIn unit => do
    let stored ← need s.stored
    let q ← attempt (stored.toDisplay unit)
    return s.putDisplay q
  | .display dimension value unit => do
    let d ← attempt (Dimension.ofText dimension)
    let q ← attempt (DisplayQuantity.ofValue d value unit)
    return s.putDisplay q
  | .convert unit => do
    let display ← need s.display
    let q ← attempt (display.convertTo unit)
    return s.putDisplay q
  | .restore => do
    let display ← need s.display
    let q ← attempt display.toStored
    return s.putStored q
  | .parse text =>
    let e := Entry.parse? text
    .ok ({ s with parsed := e }, .entry e)
  | .storeParsed dimension defaultUnit => do
    let d ← attempt (Dimension.ofText dimension)
    let parsed ← need s.parsed
    let q ← attempt (parsed.store d (defaultUnit.getD (s.options.defaultSymbol d)))
    return s.putStored q
  | .price dimension price unit => do
    let d ← attempt (Dimension.ofText dimension)
    let p ← attempt (UnitPrice.ofPrice d price unit)
    return ({ s with price := some p }, .price p)
  | .total => do
    let price ← need s.price
    let stored ← need s.stored
    let x ← attempt (price.totalFor stored)
    return ({ s with total := some x }, .double (.finite x))
  | .perUnit unit => do
    let price ← need s.price
    let x ← attempt (price.perUnit unit)
    return (s, .double x)
  | .options json => do
    let o ← (DisplayOptions.ofJson json).mapError Fault.options
    return ({ s with options := o }, .options o)
  | .format unit => do
    let stored ← need s.stored
    let text ← attempt (Format.quantity stored unit s.options)
    return (s, .text text)
  | .formatDisplay => do
    let display ← need s.display
    let text ← attempt (Format.display display s.options)
    return (s, .text text)
  | .money amount => do
    let text ← attempt (Format.money amount s.options)
    return (s, .text text)
  | .moneyTotal => do
    let total ← need s.total
    let text ← attempt (Format.money (.finite total) s.options)
    return (s, .text text)

/-- The session after a step; a step that fails leaves it as it was. -/
def after (s : Session) (t : Step) : Session :=
  match s.step t with
  | .ok (next, _) => next
  | .error _ => s

/-- The answers of a run of steps. -/
def answers (s : Session) : List Step → List (Except Fault Answer)
  | [] => []
  | t :: rest => (s.step t).map (·.2) :: answers (s.after t) rest

/-- The session after a run of steps. -/
def run (s : Session) (steps : List Step) : Session := steps.foldl after s

end Session

end UnitLedger
