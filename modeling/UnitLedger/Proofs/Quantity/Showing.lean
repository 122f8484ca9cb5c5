import UnitLedger.Proofs.Amount
import UnitLedger.Proofs.MeasureUnit
import UnitLedger.Proofs.Quantity.Storing
import Mathlib.Tactic.Linarith
import Mathlib.Tactic.NormNum
import Mathlib.Tactic.Positivity
set_option autoImplicit false

/-! # Showing stored quantities

A count of base units is divided by the factor of a unit at fifty digits (`exists_inUnit`) and shown
as a double (`exists_valueIn`).  Up to `2 ^ 50` base units the double is near enough to the quotient
for the count to be restored from it (`toStored_of_toDisplay`).
-/

namespace UnitLedger

open Numeral Decimal Exact Registry Binary64

namespace StoredQuantity

variable {symbol : String} {u : MeasureUnit}

theorem natAbs_baseValue_le (q : StoredQuantity) : q.baseValue.toInt.natAbs ≤ 2 ^ 63 := by
  have hlow : -2 ^ 63 ≤ q.baseValue.toInt := Int64.le_toInt _
  have hhigh : q.baseValue.toInt < 2 ^ 63 := Int64.toInt_lt _
  omega

/-- A count of base units has few digits. -/
theorem toRat_amount (q : StoredQuantity) : q.amount.toRat = q.baseValue.toInt := by
  apply toRat_ofInt
  apply keeps_intCast
  rw [digitCount_le_iff]
  have hle := natAbs_baseValue_le q
  unfold workingPrecision
  omega

/-- A quotient by the factor of a unit is exact as far as fifty digits go. -/
theorem exists_ofBase (hu : u ∈ builtin.units) {base : Decimal}
    (hprec : base.precision = workingPrecision) :
    ∃ z, u.ofBase base = .ok z ∧ z.precision = workingPrecision ∧
      Near ((10 : Rat) ^ (-49 : Int) / 2) z.toRat (base.toRat / u.factor.toRat) ∧
      (Keeps workingPrecision (base.toRat / u.factor.toRat) →
        z.toRat = base.toRat / u.factor.toRat) := by
  obtain ⟨z, hz, hprecision, hround⟩ := MeasureUnit.exists_ofBase (factor_pos hu).ne' hprec.ge
  rw [hprec, factor_precision u hu, Nat.max_self] at hprecision
  exact ⟨z, hz, hprecision, hround.near, hround.eq_of_keeps⟩

/-- The count in a unit is the exact quotient as far as fifty digits go. -/
theorem exists_inUnit (q : StoredQuantity) (hu : u ∈ builtin.units) :
    ∃ z, q.inUnit u = .ok z ∧ z.precision = workingPrecision ∧
      |z.toRat - q.baseValue.toInt / u.factor.toRat| ≤
        |q.baseValue.toInt / u.factor.toRat| * (10 : Rat) ^ (-49 : Int) / 2 ∧
      (Keeps workingPrecision (q.baseValue.toInt / u.factor.toRat) →
        z.toRat = q.baseValue.toInt / u.factor.toRat) := by
  obtain ⟨z, hz, hprec, hnear, hexact⟩ := exists_ofBase hu (ofInt_precision q.baseValue.toInt)
  rw [show (ofInt q.baseValue.toInt).toRat = q.baseValue.toInt from toRat_amount q] at hnear hexact
  rw [Near, ← mul_div_assoc] at hnear
  exact ⟨z, hz, hprec, hnear, hexact⟩

/-- The count in a unit is no more than the count of base units. -/
theorem abs_quotient_le {q : StoredQuantity} (hu : u ∈ builtin.units) :
    |q.baseValue.toInt / u.factor.toRat| ≤ 2 ^ 63 := by
  obtain ⟨hlow, -⟩ := factor_bounds u hu
  have hmost : |(q.baseValue.toInt : Rat)| ≤ 2 ^ 63 := by
    rw [abs_intCast]
    exact_mod_cast natAbs_baseValue_le q
  rw [abs_div, abs_of_pos (factor_pos hu)]
  exact (div_le_self (abs_nonneg _) hlow).trans hmost

/-- A count in a unit is not too small for a double unless it is zero. -/
theorem le_abs_quotient {q : StoredQuantity} (hu : u ∈ builtin.units)
    (hne : q.baseValue.toInt ≠ 0) : 1 / 10 ^ 12 ≤ |q.baseValue.toInt / u.factor.toRat| := by
  obtain ⟨hlow, hhigh⟩ := factor_bounds u hu
  have hone : (1 : Rat) ≤ |(q.baseValue.toInt : Rat)| := by
    exact_mod_cast Int.one_le_abs hne
  rw [abs_div, abs_of_pos (factor_pos hu)]
  exact div_le_div₀ (by positivity) hone (by linarith) hhigh

/-- The double shown differs from the exact quotient by a part in `2 ^ 51` at most. -/
theorem exists_valueIn {q : StoredQuantity} (hu : builtin.find? symbol = some u)
    (hd : u.dimension = q.dimension) :
    ∃ y : Finite, q.valueIn symbol = .ok y ∧
      |y.writtenValue - q.baseValue.toInt / u.factor.toRat| ≤
        |q.baseValue.toInt / u.factor.toRat| * (7 / 2 ^ 54) := by
  have hmem := mem_units_of_find? hu
  obtain ⟨z, hz, -, hnear, -⟩ := exists_inUnit q hmem
  have hresolve : builtin.resolveFor q.dimension symbol = .ok u :=
    resolveFor_eq_ok_iff.2 (lookup_eq_ok_iff.2 ⟨hu, hd⟩)
  have hleaves : Amount.Leaves z.toRat (q.valueIn symbol) := by
    unfold valueIn
    rw [hresolve]
    show Amount.Leaves z.toRat (q.inUnit u >>= fun value => Amount.toDouble value)
    rw [hz]
    exact Amount.leaves_leave z _
  by_cases hzero : q.baseValue.toInt = 0
  · rw [hzero, Int.cast_zero, zero_div] at hnear ⊢
    have hz0 : z.toRat = 0 := by simpa using hnear
    rw [hz0] at hleaves
    obtain ⟨y, hy, -⟩ := hleaves.exists_ok (abs_zero.trans_lt overflowThreshold_pos)
    rw [hy] at hleaves
    refine ⟨y, hy, ?_⟩
    rw [Finite.writtenValue_of_zero hleaves.significand_eq_zero]
    simp
  · have hleast := le_abs_quotient hmem hzero
    have hmost := abs_quotient_le (q := q) hmem
    generalize (q.baseValue.toInt : Rat) / u.factor.toRat = r at *
    have hz : |z.toRat - r| ≤ |r| / 10 ^ 49 := by
      refine hnear.trans ?_
      norm_num
      linarith [abs_nonneg r]
    have hlower := abs_sub_abs_le_abs_sub r z.toRat
    have hupper := abs_sub_abs_le_abs_sub z.toRat r
    rw [abs_sub_comm] at hlower
    have hrange : InRange |z.toRat| := by
      apply inRange_of_bounds
      · norm_num at hleast hz ⊢
        linarith
      · norm_num at hmost hz ⊢
        linarith
    obtain ⟨hnormal, hfits⟩ := hrange.thresholds
    obtain ⟨y, hy, -⟩ := hleaves.exists_ok hfits
    rw [hy] at hleaves
    have hwritten := hleaves.near_writtenValue hnormal.le
    refine ⟨y, hy, ?_⟩
    have htriangle := abs_sub_le y.writtenValue z.toRat r
    unfold Near at hwritten
    norm_num at hwritten hz ⊢
    linarith [abs_nonneg r]

/-- The product that is stored differs from the exact one by half a unit of the fiftieth digit at
most. -/
theorem abs_product_sub_le (u : MeasureUnit) (y : Finite) :
    |((ofFinite y).mul u.factor).toRat - y.writtenValue * u.factor.toRat| ≤
      |y.writtenValue * u.factor.toRat| * (10 : Rat) ^ (-49 : Int) / 2 := by
  have hproduct := (MeasureUnit.isRounded_toBase u (ofFinite_precision y).ge).near
  rwa [Near, toRat_ofFinite, ← mul_div_assoc] at hproduct

/-- A count of no more than `2 ^ 50` base units is restored from the product of the double shown and
the factor. -/
theorem halfAway_mul_of_near {q : StoredQuantity} (hu : u ∈ builtin.units) {y : Finite}
    (hq : |q.baseValue.toInt| ≤ 2 ^ 50)
    (hy : |y.writtenValue - q.baseValue.toInt / u.factor.toRat| ≤
      |q.baseValue.toInt / u.factor.toRat| * (7 / 2 ^ 54)) :
    halfAway ((ofFinite y).mul u.factor).toRat = q.baseValue.toInt := by
  have hproduct := abs_product_sub_le u y
  have hq' : |(q.baseValue.toInt : Rat)| ≤ 2 ^ 50 := by exact_mod_cast hq
  -- in base units, the double is off by less than `7 / 16`
  have hbase := abs_mul_sub_le_of_div (factor_pos hu) hy
  have htriangle := abs_sub_le ((ofFinite y).mul u.factor).toRat
    (y.writtenValue * u.factor.toRat) q.baseValue.toInt
  have hsize := abs_sub_abs_le_abs_sub (y.writtenValue * u.factor.toRat) q.baseValue.toInt
  apply halfAway_eq_of_abs_sub_lt
  generalize y.writtenValue * u.factor.toRat = p at *
  norm_num at hproduct hbase hq' ⊢
  linarith

/-- Showing a stored quantity and storing what is shown loses nothing: up to `2 ^ 50` base units the
quantity comes back in every unit of its dimension. -/
theorem toStored_of_toDisplay {q : StoredQuantity} (hq : |q.baseValue.toInt| ≤ 2 ^ 50)
    (hu : builtin.find? symbol = some u) (hd : u.dimension = q.dimension) :
    ∃ shown, q.toDisplay symbol = .ok shown ∧ shown.toStored = .ok q := by
  have hmem := mem_units_of_find? hu
  obtain ⟨y, hy, hnear⟩ := exists_valueIn hu hd
  have hresolve : builtin.resolveFor q.dimension symbol = .ok u :=
    resolveFor_eq_ok_iff.2 (lookup_eq_ok_iff.2 ⟨hu, hd⟩)
  refine ⟨⟨y, u⟩, ?_, ?_⟩
  · unfold toDisplay
    rw [hy, hresolve]
    rfl
  · have hstores := stores_mul (find?_symbol u hmem) hd y
    rw [halfAway_mul_of_near hmem hq hnear] at hstores
    have hdimension : (⟨y, u⟩ : DisplayQuantity).dimension = q.dimension := hd
    rw [DisplayQuantity.toStored, hdimension]
    exact hstores.eq_ok

/-- The largest count, negative, in grains, whose factor is not exact. -/
theorem toStored_of_toDisplay_grains :
    |(⟨-2 ^ 50, .weight⟩ : StoredQuantity).baseValue.toInt| ≤ 2 ^ 50 ∧
      ∃ shown, (⟨-2 ^ 50, .weight⟩ : StoredQuantity).toDisplay "GR" = .ok shown ∧
        shown.toStored = .ok ⟨-2 ^ 50, .weight⟩ :=
  ⟨by decide +kernel, toStored_of_toDisplay
    (u := ⟨"gr", "grain", .weight, .imperial, ⟨6479891 * 10 ^ 43 - 1, -48, 50, by decide⟩⟩)
    (by decide +kernel) (by decide +kernel) rfl⟩

end StoredQuantity

end UnitLedger
