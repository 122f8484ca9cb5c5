import UnitLedger.Registry.Basic
set_option autoImplicit false

/-! # The built-in units

Length and weight units have literal factors.  Area and volume units are defined from a length unit:
the square or cube of its factor times a ratio.  An inch is 25.4 millimetres, a pound is 453592.37
milligrams, and a gallon is 231 cubic inches.
-/

namespace UnitLedger.Registry

/-! ## Rows -/

/-- A unit that is a multiple of another one of its dimension. -/
structure MultipleRow where
  symbol : String
  name : String
  num : Int
  den : Int
  deriving DecidableEq, Repr

/-- A unit that is a ratio times a power of a length unit. -/
structure DerivedRow where
  symbol : String
  name : String
  system : UnitSystem
  length : String
  num : Int
  den : Int
  deriving DecidableEq, Repr

/-- Millimetres in an inch. -/
def inch : Decimal := Decimal.rounded 254 (-1) Decimal.workingPrecision

/-- Milligrams in a pound. -/
def pound : Decimal := Decimal.rounded 45359237 (-2) Decimal.workingPrecision

/-- Metric lengths in millimetres. -/
def metricLengths : List MultipleRow :=
  [⟨"mm", "millimeter", 1, 1⟩, ⟨"cm", "centimeter", 10, 1⟩, ⟨"m", "meter", 1000, 1⟩,
    ⟨"km", "kilometer", 1000000, 1⟩]

/-- Imperial lengths in inches. -/
def imperialLengths : List MultipleRow :=
  [⟨"in", "inch", 1, 1⟩, ⟨"ft", "foot", 12, 1⟩, ⟨"yd", "yard", 36, 1⟩, ⟨"mi", "mile", 63360, 1⟩]

/-- Metric weights in milligrams. -/
def metricWeights : List MultipleRow :=
  [⟨"mg", "milligram", 1, 1⟩, ⟨"g", "gram", 1000, 1⟩, ⟨"kg", "kilogram", 1000000, 1⟩,
    ⟨"t", "tonne", 1000000000, 1⟩]

/-- Imperial weights in pounds. -/
def imperialWeights : List MultipleRow :=
  [⟨"gr", "grain", 1, 7000⟩, ⟨"oz", "ounce", 1, 16⟩, ⟨"lb", "pound", 1, 1⟩,
    ⟨"st", "stone", 14, 1⟩]

def areas : List DerivedRow :=
  [⟨"mm2", "square millimeter", .metric, "mm", 1, 1⟩,
    ⟨"cm2", "square centimeter", .metric, "cm", 1, 1⟩,
    ⟨"m2", "square meter", .metric, "m", 1, 1⟩,
    ⟨"ha", "hectare", .metric, "m", 10000, 1⟩,
    ⟨"km2", "square kilometer", .metric, "km", 1, 1⟩,
    ⟨"in2", "square inch", .imperial, "in", 1, 1⟩,
    ⟨"ft2", "square foot", .imperial, "ft", 1, 1⟩,
    ⟨"yd2", "square yard", .imperial, "yd", 1, 1⟩,
    ⟨"acre", "acre", .imperial, "ft", 43560, 1⟩]

def volumes : List DerivedRow :=
  [⟨"mm3", "cubic millimeter", .metric, "mm", 1, 1⟩,
    ⟨"cm3", "cubic centimeter", .metric, "cm", 1, 1⟩,
    ⟨"ml", "milliliter", .metric, "cm", 1, 1⟩,
    ⟨"l", "liter", .metric, "cm", 1000, 1⟩,
    ⟨"m3", "cubic meter", .metric, "m", 1, 1⟩,
    ⟨"in3", "cubic inch", .imperial, "in", 1, 1⟩,
    ⟨"fl_oz", "US fluid ounce", .imperial, "in", 231, 128⟩,
    ⟨"pt", "US pint", .imperial, "in", 231, 8⟩,
    ⟨"qt", "US quart", .imperial, "in", 231, 4⟩,
    ⟨"gal", "US gallon", .imperial, "in", 231, 1⟩,
    ⟨"ft3", "cubic foot", .imperial, "ft", 1, 1⟩,
    ⟨"yd3", "cubic yard", .imperial, "yd", 1, 1⟩]

/-- Further spellings, each with the symbol it stands for. -/
def spellings : List (String × String) :=
  [("millimeter", "mm"), ("millimeters", "mm"), ("centimeter", "cm"), ("centimeters", "cm"),
    ("meter", "m"), ("meters", "m"), ("metre", "m"), ("metres", "m"), ("inch", "in"),
    ("inches", "in"), ("foot", "ft"), ("feet", "ft"), ("yard", "yd"), ("yards", "yd"),
    ("mile", "mi"), ("miles", "mi"),
    ("sq_in", "in2"), ("sqin", "in2"), ("sq_ft", "ft2"), ("sqft", "ft2"), ("sq_yd", "yd2"),
    ("sq_m", "m2"), ("sqm", "m2"), ("acres", "acre"),
    ("cc", "cm3"), ("liter", "l"), ("liters", "l"), ("litre", "l"), ("litres", "l"),
    ("floz", "fl_oz"), ("gallon", "gal"), ("gallons", "gal"), ("cu_in", "in3"), ("cu_ft", "ft3"),
    ("gram", "g"), ("grams", "g"), ("kilogram", "kg"), ("kilograms", "kg"), ("pound", "lb"),
    ("pounds", "lb"), ("lbs", "lb"), ("ounce", "oz"), ("ounces", "oz"),
    ("each", "ea"), ("pc", "ea"), ("pcs", "ea"), ("unit", "ea"), ("units", "ea")]

/-! ## Registering rows -/

/-- Registers a unit that is `num / den` times `one`. -/
def registerMultiple (d : Dimension) (system : UnitSystem) (one : Decimal) (r : Registry)
    (row : MultipleRow) : Except UnitError Registry := do
  let ratio ← liftFault (Decimal.ofRatio row.num row.den)
  return r.register ⟨row.symbol, row.name, d, system, one.mul ratio⟩

/-- The factor of the length unit registered under a key. -/
def lengthFactor (r : Registry) (key : String) : Except UnitError Decimal :=
  match r.unitAt? key.toList with
  | some u => .ok u.factor
  | none => .error (.unknownUnit Dimension.length.name key)

/-- Registers a unit that is defined from a length unit.  The dimension has to be a power of
length. -/
def registerDerived (d : Dimension) (r : Registry) (row : DerivedRow) :
    Except UnitError Registry :=
  match d.lengthPower? with
  | none => .error (.invalidQuantity (d.name ++ " is not derived from length"))
  | some power => do
    let ratio ← liftFault (Decimal.ofRatio row.num row.den)
    let length ← r.lengthFactor row.length
    return r.register ⟨row.symbol, row.name, d, row.system, (length.pow power).mul ratio⟩

/-- The unit that things are counted in. -/
def each : MeasureUnit := ⟨"ea", "each", .count, .metric, Decimal.ofInt 1⟩

/-- The registry of all rows. -/
def build : Except UnitError Registry := do
  let one := Decimal.ofInt 1
  let r ← metricLengths.foldlM (registerMultiple .length .metric one) empty
  let r ← imperialLengths.foldlM (registerMultiple .length .imperial inch) r
  let r ← areas.foldlM (registerDerived .area) r
  let r ← volumes.foldlM (registerDerived .volume) r
  let r ← metricWeights.foldlM (registerMultiple .weight .metric one) r
  let r ← imperialWeights.foldlM (registerMultiple .weight .imperial pound) r
  return spellings.foldl (fun r s => r.addAlias s.1 s.2) (r.register each)

/-- The registry in use. -/
def builtin : Registry :=
  match build with
  | .ok r => r
  | .error _ => empty

end UnitLedger.Registry
