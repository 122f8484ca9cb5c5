import UnitLedger.Quantity
set_option autoImplicit false

/-! # Prices

A price is kept per base unit of its dimension, so that what it is multiplied with is a stored
quantity whatever unit the price was given in.  A total is the exact product, rounded once.
-/

namespace UnitLedger

open Registry (builtin)

/-- A price for one base unit of a dimension. -/
structure UnitPrice where
  perBase : Binary64
  dimension : Dimension
  deriving DecidableEq, Repr

namespace UnitPrice

/-- The price per base unit for a price per unit of the dimension. -/
def ofPrice (d : Dimension) (price : Binary64) (symbol : String) : Except UnitError UnitPrice := do
  let unit ← builtin.lookup d symbol
  let exact ← Amount.enter price
  let perBase ← unit.ofBase exact
  let rounded ← Amount.toDouble perBase
  return ⟨.finite rounded, d⟩

/-- What a stored quantity of the dimension costs. -/
def totalFor (p : UnitPrice) (q : StoredQuantity) : Except UnitError Binary64.Finite :=
  if q.dimension = p.dimension then do
    let perBase ← liftFault (Decimal.ofBinary64 p.perBase)
    Amount.leave (perBase.mul q.amount) ("total for " ++ q.text ++ " is outside the f64 range")
  else
    .error (.dimensionMismatch p.dimension.name q.dimension.name q.dimension.baseSymbol)

/-- The price for a unit of the dimension.  The product of doubles is not checked, so a large price
can come out infinite. -/
def perUnit (p : UnitPrice) (symbol : String) : Except UnitError Binary64 := do
  let unit ← builtin.lookup p.dimension symbol
  let factor ← unit.factorDouble
  return p.perBase.mul (.finite factor)

end UnitPrice

end UnitLedger
