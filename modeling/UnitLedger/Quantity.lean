import UnitLedger.Registry.Tables
set_option autoImplicit false

/-! # Quantities

A quantity is stored as an integer count of base units of its dimension and shown as a double in
some unit.  This module turns one into the other: storing rounds once, a half going away from zero;
showing does not round beyond the double.
-/

namespace UnitLedger

open Registry (builtin)

/-- A quantity as it is stored: a count of base units. -/
structure StoredQuantity where
  baseValue : Int64
  dimension : Dimension
  deriving DecidableEq, Repr

/-- A quantity as it is shown: a number of some unit. -/
structure DisplayQuantity where
  value : Binary64.Finite
  unit : MeasureUnit
  deriving DecidableEq, Repr

namespace StoredQuantity

def zero (d : Dimension) : StoredQuantity := ⟨0, d⟩

/-- Stores a value of a unit of the dimension. -/
def ofValue (d : Dimension) (value : Binary64) (symbol : String) :
    Except UnitError StoredQuantity := do
  let unit ← builtin.lookup d symbol
  let exact ← Amount.enter value
  let baseValue ← Amount.roundToInteger (unit.toBase exact)
  return ⟨baseValue, d⟩

/-- The number of base units as a decimal. -/
def amount (q : StoredQuantity) : Decimal := Decimal.ofInt q.baseValue.toInt

/-- The value in a unit of the dimension, as exact as decimals are. -/
def inUnit (q : StoredQuantity) (unit : MeasureUnit) : Except UnitError Decimal :=
  unit.ofBase q.amount

/-- The value in a unit of the dimension. -/
def valueIn (q : StoredQuantity) (symbol : String) : Except UnitError Binary64.Finite := do
  let unit ← builtin.resolveFor q.dimension symbol
  let value ← q.inUnit unit
  Amount.toDouble value

/-- The quantity in a unit of the dimension. -/
def toDisplay (q : StoredQuantity) (symbol : String) : Except UnitError DisplayQuantity := do
  let value ← q.valueIn symbol
  let unit ← builtin.resolveFor q.dimension symbol
  return ⟨value, unit⟩

/-- The sum of two quantities of one dimension, if it can be stored. -/
def checkedAdd (q r : StoredQuantity) : Except UnitError StoredQuantity :=
  if q.dimension = r.dimension then
    match storable? (q.baseValue.toInt + r.baseValue.toInt) with
    | some n => .ok ⟨n, q.dimension⟩
    | none => .error (.invalidQuantity "sum is outside the storable range")
  else
    .error (.dimensionMismatch q.dimension.name r.dimension.name r.dimension.baseSymbol)

/-- The count and the base unit. -/
def text (q : StoredQuantity) : String :=
  toString q.baseValue.toInt ++ " " ++ q.dimension.baseSymbol

theorem checkedAdd_eq_ok_iff {q r s : StoredQuantity} :
    q.checkedAdd r = .ok s ↔
      q.dimension = r.dimension ∧ s.dimension = q.dimension ∧
        s.baseValue.toInt = q.baseValue.toInt + r.baseValue.toInt := by
  unfold checkedAdd
  by_cases h : q.dimension = r.dimension
  · simp only [h, if_true, true_and]
    cases hs : storable? (q.baseValue.toInt + r.baseValue.toInt) with
    | none =>
      simp only [reduceCtorEq, false_iff, not_and]
      intro _ hsum
      rw [(storable?_eq_some_iff _ s.baseValue).2 hsum] at hs
      exact Option.some_ne_none _ hs
    | some n =>
      rw [storable?_eq_some_iff] at hs
      simp only [Except.ok.injEq]
      constructor
      · rintro rfl
        exact ⟨rfl, hs⟩
      · rintro ⟨hd, hsum⟩
        have hn : n = s.baseValue := Int64.toInt_inj.1 (hs.trans hsum.symm)
        rw [hn, ← hd]
  · simp [h]

end StoredQuantity

/-- Converts a value from a unit of the dimension to another one. -/
def convert (d : Dimension) (value : Binary64) (source target : String) :
    Except UnitError Binary64.Finite := do
  let sourceUnit ← builtin.lookup d source
  let targetUnit ← builtin.resolveFor d target
  let exact ← Amount.enter value
  let converted ← sourceUnit.convertTo exact targetUnit
  Amount.toDouble converted

namespace DisplayQuantity

/-- A finite value of a unit of the dimension. -/
def ofValue (d : Dimension) (value : Binary64) (symbol : String) :
    Except UnitError DisplayQuantity :=
  match value with
  | .finite x => (builtin.lookup d symbol).map fun unit => ⟨x, unit⟩
  | x => .error (.invalidQuantity (x.text ++ " is not a finite number"))

def dimension (q : DisplayQuantity) : Dimension := q.unit.dimension

/-- Stores the quantity. -/
def toStored (q : DisplayQuantity) : Except UnitError StoredQuantity :=
  StoredQuantity.ofValue q.dimension (.finite q.value) q.unit.symbol

/-- The quantity in another unit of its dimension. -/
def convertTo (q : DisplayQuantity) (symbol : String) : Except UnitError DisplayQuantity := do
  let target ← builtin.resolveFor q.dimension symbol
  let value ← convert q.dimension (.finite q.value) q.unit.symbol target.symbol
  return ⟨value, target⟩

/-- The value and the unit. -/
def text (q : DisplayQuantity) : String :=
  (Binary64.finite q.value).text ++ " " ++ q.unit.symbol

end DisplayQuantity

end UnitLedger
