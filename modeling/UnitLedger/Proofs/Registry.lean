import UnitLedger.Registry.Factor
import UnitLedger.Proofs.Decimal.Precision
set_option autoImplicit false

/-! # The built-in units

Facts about every unit of the built-in tables that the kernel checks one unit after the other.  A
factor is a number of at least one base unit with few enough digits that a product with a double is
exact (`length_factor_le`); the grain alone has fifty digits, because a seven thousandth does not
end.
-/

namespace UnitLedger.Registry

open Numeral Decimal

theorem mem_units_of_find? {r : Registry} {symbol : String} {u : MeasureUnit}
    (h : r.find? symbol = some u) : u ∈ r.units := by
  unfold find? unitAt? at h
  rw [Option.bind_eq_some_iff] at h
  obtain ⟨i, -, hi⟩ := h
  exact List.mem_of_getElem? hi

/-- What is checked of a unit of the built-in tables. -/
structure IsSound (u : MeasureUnit) : Prop where
  found : builtin.find? u.symbol = some u
  precision : u.factor.precision = workingPrecision
  bounds : 1 ≤ u.factor.toRat ∧ u.factor.toRat ≤ 10 ^ 12
  length : u.symbol ≠ "gr" → u.factor.length ≤ 33
  apart : ∀ places ≤ 12, u.factor.toRat = 10 ^ places ∨
    100 * u.factor.toRat ≤ 99 * 10 ^ places ∨ 101 * 10 ^ places ≤ 100 * u.factor.toRat
  count : u.dimension.isCount = true → u.factor.toRat = 1

instance : DecidablePred IsSound := fun u =>
  decidable_of_iff
    (builtin.find? u.symbol = some u ∧ u.factor.precision = workingPrecision ∧
      (1 ≤ u.factor.toRat ∧ u.factor.toRat ≤ 10 ^ 12) ∧
      (u.symbol ≠ "gr" → u.factor.length ≤ 33) ∧
      (∀ places ≤ 12, u.factor.toRat = 10 ^ places ∨
        100 * u.factor.toRat ≤ 99 * 10 ^ places ∨ 101 * 10 ^ places ≤ 100 * u.factor.toRat) ∧
      (u.dimension.isCount = true → u.factor.toRat = 1))
    ⟨fun ⟨found, precision, bounds, length, apart, count⟩ =>
      ⟨found, precision, bounds, length, apart, count⟩,
    fun h => ⟨h.found, h.precision, h.bounds, h.length, h.apart, h.count⟩⟩

-- One evaluation of the tables for all facts about them.
theorem isSound_builtin : ∀ u ∈ builtin.units, IsSound u := by
  decide +kernel

/-- Every unit is found under its symbol. -/
theorem find?_symbol (u : MeasureUnit) (hu : u ∈ builtin.units) :
    builtin.find? u.symbol = some u :=
  (isSound_builtin u hu).found

theorem factor_precision (u : MeasureUnit) (hu : u ∈ builtin.units) :
    u.factor.precision = workingPrecision :=
  (isSound_builtin u hu).precision

/-- No unit is smaller than a base unit, and none is larger than a square kilometre. -/
theorem factor_bounds (u : MeasureUnit) (hu : u ∈ builtin.units) :
    1 ≤ u.factor.toRat ∧ u.factor.toRat ≤ 10 ^ 12 :=
  (isSound_builtin u hu).bounds

theorem factor_pos {u : MeasureUnit} (hu : u ∈ builtin.units) : 0 < u.factor.toRat :=
  lt_of_lt_of_le one_pos (factor_bounds u hu).1

/-- What a double can hold, times a factor, still fits the working precision. -/
theorem length_factor_le (u : MeasureUnit) (hu : u ∈ builtin.units) :
    u.symbol ≠ "gr" → u.factor.length ≤ 33 :=
  (isSound_builtin u hu).length

/-- A power of ten that is used as a step is the size of a unit or clearly apart from it. -/
theorem factor_apart_from_pow (u : MeasureUnit) (hu : u ∈ builtin.units) :
    ∀ places ≤ 12, u.factor.toRat = 10 ^ places ∨ 100 * u.factor.toRat ≤ 99 * 10 ^ places ∨
      101 * 10 ^ places ≤ 100 * u.factor.toRat :=
  (isSound_builtin u hu).apart

/-- Things are counted in one unit, and it is the base unit. -/
theorem factor_of_isCount (u : MeasureUnit) (hu : u ∈ builtin.units) :
    u.dimension.isCount = true → u.factor.toRat = 1 :=
  (isSound_builtin u hu).count

end UnitLedger.Registry
