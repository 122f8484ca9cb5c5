import UnitLedger.Amount
import UnitLedger.Dimension
set_option autoImplicit false

/-! # Units of measurement

A unit belongs to one dimension and one system and is so many base units of its dimension.  Values
are converted exactly, as far as the precision of decimals goes.
-/

namespace UnitLedger

/-- A unit and its factor: one of it is `factor` base units. -/
structure MeasureUnit where
  symbol : String
  name : String
  dimension : Dimension
  system : UnitSystem
  factor : Decimal
  deriving DecidableEq, Repr

namespace MeasureUnit

/-- The double nearest to the factor. -/
def factorDouble (u : MeasureUnit) : Except UnitError Binary64.Finite :=
  Amount.leave u.factor ("factor of '" ++ u.symbol ++ "' is not representable")

/-- The unit has the size of a base unit. -/
def isBase (u : MeasureUnit) : Bool := u.factor.same (Decimal.ofInt 1)

def isImperial (u : MeasureUnit) : Bool := u.system = .imperial

/-- The two units agree in everything, with factors compared by value. -/
def same (u v : MeasureUnit) : Bool :=
  u.symbol = v.symbol && u.name = v.name && u.dimension = v.dimension && u.system = v.system &&
    u.factor.same v.factor

/-- Values of the one unit can be converted to the other. -/
def isCompatible (u v : MeasureUnit) : Bool := u.dimension = v.dimension

/-- Base units in `value` of this unit, before any rounding to an integer. -/
def toBase (u : MeasureUnit) (value : Decimal) : Decimal := value.mul u.factor

/-- How much of this unit `base` base units are. -/
def ofBase (u : MeasureUnit) (base : Decimal) : Except UnitError Decimal :=
  liftFault (base.div u.factor)

/-- The value in `target` of `value` in this unit. -/
def convertTo (u : MeasureUnit) (value : Decimal) (target : MeasureUnit) :
    Except UnitError Decimal :=
  if u.isCompatible target then target.ofBase (u.toBase value)
  else
    .error (.dimensionMismatch u.dimension.name target.dimension.name target.symbol)

end MeasureUnit

end UnitLedger
