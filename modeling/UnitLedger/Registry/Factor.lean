import UnitLedger.Registry.Tables
set_option autoImplicit false

/-! # Exact factors of the built-in units

What one of each unit is in base units as a rational number, taken from the rows of the tables and
not from the decimals that are computed from them.  `factor_eq_exactFactor` says that these agree
for every unit but the grain, because a seven-thousandth is no finite decimal.
-/

namespace UnitLedger.Registry

/-- How many of the unit it is a multiple of a row's unit is. -/
def MultipleRow.ratio (row : MultipleRow) : Rat := row.num / row.den

/-- The ratio that a row applies to the power of its length unit. -/
def DerivedRow.ratio (row : DerivedRow) : Rat := row.num / row.den

/-- The factors of units that are multiples of one of factor `one`. -/
def exactMultiples (one : Rat) (rows : List MultipleRow) : List (String × Rat) :=
  rows.map fun row => (row.symbol, one * row.ratio)

/-- The factors of the length units. -/
def exactLengths : List (String × Rat) :=
  exactMultiples 1 metricLengths ++ exactMultiples (127 / 5) imperialLengths

/-- The factors of units that are derived from length units. -/
def exactDerived (power : Nat) (rows : List DerivedRow) : List (String × Rat) :=
  rows.filterMap fun row =>
    (exactLengths.lookup row.length).map fun length => (row.symbol, length ^ power * row.ratio)

/-- The factors of the weight units. -/
def exactWeights : List (String × Rat) :=
  exactMultiples 1 metricWeights ++ exactMultiples (45359237 / 100) imperialWeights

/-- The factors of all units. -/
def exactFactors : List (String × Rat) :=
  exactLengths ++ exactDerived 2 areas ++ exactDerived 3 volumes ++ exactWeights ++
    [(each.symbol, 1)]

/-- How many base units one of the unit with this symbol is. -/
def exactFactor? (symbol : String) : Option Rat := exactFactors.lookup symbol

theorem factor_eq_exactFactor :
    ∀ u ∈ builtin.units, u.symbol ≠ "gr" → exactFactor? u.symbol = some u.factor.toRat := by
  decide +kernel

/-- A grain is a seven-thousandth of a pound. -/
theorem grain_exactFactor : exactFactor? "gr" = some (6479891 / 100000) := by
  decide +kernel

theorem isSome_exactFactor {u : MeasureUnit} (hu : u ∈ builtin.units) :
    (exactFactor? u.symbol).isSome := by
  by_cases hgrain : u.symbol = "gr"
  · rw [hgrain, grain_exactFactor]
    rfl
  · rw [factor_eq_exactFactor u hu hgrain]
    rfl

end UnitLedger.Registry
