import UnitLedger.Decimal.Binary
import UnitLedger.Proofs.Binary64.Nearest
import UnitLedger.Proofs.Binary64.Shortest
import UnitLedger.Proofs.Decimal.Sum
set_option autoImplicit false

/-! # Between decimals and doubles

A double enters as the decimal that is written for it, with no more than seventeen digits
(`toRat_ofFinite`, `keeps_writtenValue`).  A decimal leaves as the double that it is rounded to
(`roundsTo_toBinary64`), and enters again as it was when it has fifteen digits or fewer
(`exists_ofDecimal_of_keeps`).
-/

namespace UnitLedger

namespace Binary64.Finite

open Decimal

theorem keeps_writtenValue (x : Finite) : Keeps 17 x.writtenValue := by
  rw [writtenValue_eq]
  split
  · rw [neg_one_mul]
    exact x.keeps_written.neg
  · rw [one_mul]
    exact x.keeps_written

/-- The size of a magnitude with a sign. -/
theorem abs_signed (negative : Bool) {a : Rat} (ha : 0 ≤ a) :
    |(if negative then -1 else 1) * a| = a := by
  rw [abs_mul, abs_of_nonneg ha]
  split
  · rw [abs_neg, abs_one, one_mul]
  · rw [abs_one, one_mul]

theorem abs_toRat (x : Finite) : |x.toRat| = x.magnitude := by
  rw [toRat_eq, abs_signed _ x.magnitude_nonneg]

theorem abs_writtenValue (x : Finite) : |x.writtenValue| = x.writtenMagnitude := by
  rw [writtenValue_eq, abs_signed]
  unfold writtenMagnitude
  positivity

/-- The decimal that is written for a double is rounded to it again. -/
theorem rounds_writtenValue (x : Finite) : x.Rounds |x.writtenValue| := by
  rw [abs_writtenValue, Rounds]
  split
  · next hzero =>
    rw [writtenMagnitude_of_zero hzero]
    positivity
  · next hne => exact contains_written hne

theorem writtenValue_of_zero {x : Finite} (h : x.significand = 0) : x.writtenValue = 0 := by
  rw [writtenValue_eq, writtenMagnitude_of_zero h, mul_zero]

end Binary64.Finite

open Binary64

/-! ## From a double -/

namespace Decimal

@[simp] theorem ofFinite_precision (x : Finite) : (ofFinite x).precision = workingPrecision :=
  rounded_precision _ _ _

/-- The decimal of a double is the one written for it. -/
theorem toRat_ofFinite (x : Finite) : (ofFinite x).toRat = x.writtenValue := by
  have hvalue : x.writtenValue =
      ((if x.negative then -(x.written.digits : Int) else x.written.digits : Int) : Rat) *
        (10 : Rat) ^ x.written.exponent := by
    rw [Finite.writtenValue]
    split
    · push_cast
      ring
    · push_cast
      ring
  have hkeeps := x.keeps_writtenValue.mono (q := workingPrecision) (by decide) (by decide)
  rw [hvalue] at hkeeps ⊢
  exact toRat_rounded_of_keeps hkeeps

theorem length_ofFinite_le (x : Finite) : (ofFinite x).length ≤ 17 := by
  rw [length_le_iff_keeps _ (by decide), toRat_ofFinite]
  exact x.keeps_writtenValue

/-! ## To a double -/

/-- A decimal is taken to the double that its value is rounded to. -/
theorem roundsTo_toBinary64 (x : Decimal) :
    RoundsTo x.isNegative |x.toRat| x.toBinary64 := by
  rw [abs_toRat]
  exact roundsTo_ofDecimal _ _ _

end Decimal

/-- A decimal of at most fifteen digits is written again for the double nearest to it. -/
theorem Binary64.exists_ofDecimal_of_keeps {magnitude : Nat} {exponent : Int}
    (h : magnitude = 0 ∨ InRange (magnitude * (10 : Rat) ^ exponent))
    (hk : Decimal.Keeps 15 (magnitude * (10 : Rat) ^ exponent)) (negative : Bool) :
    ∃ y : Finite, ofDecimal negative magnitude exponent = .finite y ∧
      y.writtenValue = (if negative then -1 else 1) * (magnitude * (10 : Rat) ^ exponent) := by
  rcases h with rfl | hrange
  · refine ⟨zero negative, ofDecimal_zero negative exponent, ?_⟩
    rw [Finite.writtenValue_of_zero rfl, Nat.cast_zero, zero_mul, mul_zero]
  · obtain ⟨y, hy, hsign, hbits, hcontains⟩ := exists_ofDecimal hrange negative
    refine ⟨y, hy, ?_⟩
    rw [Finite.writtenValue_eq, hsign, Finite.written_eq_of_keeps hbits hcontains hk]

end UnitLedger
