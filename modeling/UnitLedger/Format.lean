import UnitLedger.Options
import UnitLedger.Quantity
set_option autoImplicit false

/-! # Quantities and money as text

Values are rounded to the decimals that the options ask for, a half going away from zero; counts are
written as whole numbers whatever the options say.
-/

namespace UnitLedger.Format

open Registry (builtin)

/-- A value with a number of decimals; a count has none. -/
def value (exact : Decimal) (isCount : Bool) (decimals : Nat) : Except UnitError String :=
  if isCount then .ok (exact.roundHalfAway.fixedText 0)
  else do
    let rounded ← liftFault (exact.roundPlaces decimals)
    return rounded.fixedText decimals

/-- A stored quantity in a unit of its dimension. -/
def quantity (q : StoredQuantity) (symbol : String) (o : DisplayOptions) :
    Except UnitError String := do
  let unit ← builtin.resolveFor q.dimension symbol
  let exact ← q.inUnit unit
  let number ← value exact q.dimension.isCount o.quantityDecimals.toNat
  return number ++ " " ++ unit.symbol

/-- A quantity in its own unit. -/
def display (q : DisplayQuantity) (o : DisplayOptions) : Except UnitError String := do
  let exact := Decimal.ofFinite q.value
  let number ← value exact q.dimension.isCount o.quantityDecimals.toNat
  return number ++ " " ++ q.unit.symbol

/-- An amount of money. -/
def money (amount : Binary64) (o : DisplayOptions) : Except UnitError String := do
  let exact ← liftFault (Decimal.ofBinary64 amount)
  let rounded ← liftFault (exact.roundPlaces o.moneyDecimals.toNat)
  return rounded.fixedText o.moneyDecimals.toNat

end UnitLedger.Format
