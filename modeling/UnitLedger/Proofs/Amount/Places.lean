import UnitLedger.Proofs.Amount
import UnitLedger.Proofs.Binary64.Unique
import UnitLedger.Proofs.Decimal.Entered
set_option autoImplicit false

/-! # Doubles rounded to places

The decimal that is written for a double is rounded to places, and the result is handed out as a
double again.  The decimal that is written for that one need not be the result: where doubles are
further apart than units of the last place it is the shorter one.  Rounded to the same places it
leads to the same double all the same (`contains_toPlaces`), so rounding a second time changes
nothing (`roundToPlaces_idempotent`).
-/

namespace UnitLedger

open Binary64 Exact

namespace Binary64.Finite

variable {x y : Finite} {places : Nat}

/-- Either the decimal that is written for a double has no more than the places asked for, or its
grid is finer.  In that case it is not large, and a number with these places that rounds to the
double has its unit above the decade. -/
theorem toPlaces_written_cases (h : x.significand ≠ 0) (places : Nat) :
    toPlaces x.writtenMagnitude places = x.writtenMagnitude ∨
      x.writtenMagnitude ≤ 10 ^ 16 ∧
      x.magnitude < x.writtenMagnitude + (10 : Rat) ^ (-(places : Int)) / 10 ∧
      ∀ m : Nat, x.interval.Contains (m * (10 : Rat) ^ (-(places : Int))) →
        x.writtenMagnitude ≤ (10 : Rat) ^ (-(places : Int)) ∧
        x.magnitude < (10 : Rat) ^ (-(places : Int)) := by
  obtain ⟨j, hdigits, ⟨a, ha⟩, htop, hbelow, hcoarse⟩ := exists_written_grid h
  rcases le_or_gt (-(places : Int)) j with hle | hlt
  · left
    rw [ha, ← Int.cast_natCast (n := a)]
    exact toPlaces_of_grid hle
  right
  have hmono : ∀ {m n : Int}, m ≤ n → (10 : Rat) ^ m ≤ (10 : Rat) ^ n :=
    zpow_le_zpow_right₀ (by norm_num)
  have hdecade := (Interval.decade_spec (interval_mid_ne_zero h) x.interval_den_ne_zero).2
  rw [interval_mid] at hdecade
  refine ⟨?_, ?_, fun m hm => ?_⟩
  · calc x.writtenMagnitude ≤ (10 : Rat) ^ x.interval.decade := htop
      _ ≤ (10 : Rat) ^ (16 : Int) := hmono (by omega)
      _ = 10 ^ 16 := zpow_natCast 10 16
  · have hunit : (10 : Rat) ^ j ≤ (10 : Rat) ^ (-(places : Int) - 1) := hmono (by omega)
    rw [zpow_sub_one₀ (by norm_num), ← div_eq_mul_inv] at hunit
    linarith
  · have hcoarser : x.interval.decade ≤ -(places : Int) := by
      by_contra hfine
      exact hcoarse _ hlt (by omega) m hm
    exact ⟨htop.trans (hmono hcoarser), hdecade.trans_le (hmono hcoarser)⟩

/-- When a number with these places rounds to a double, so does the decimal that is written for the
double, rounded to these places. -/
theorem contains_toPlaces (h : y.significand ≠ 0) {m : Nat}
    (hm : y.interval.Contains (m * (10 : Rat) ^ (-(places : Int)))) :
    y.interval.Contains (toPlaces y.writtenMagnitude places) := by
  rcases toPlaces_written_cases h places with hkept | ⟨-, hbelow, hcoarse⟩
  · rw [hkept]
    exact contains_written h
  obtain ⟨hwritten, hmagnitude⟩ := hcoarse m hm
  have hunit : (0 : Rat) < (10 : Rat) ^ (-(places : Int)) := by positivity
  have hone : (1 : Rat) ≤ m := by
    exact_mod_cast pos_of_mul_pos_left (pos_of_contains h hm) hunit.le
  -- the unit lies between the magnitude and its own multiple, and what is written is near to it
  have hcontains : y.interval.Contains ((10 : Rat) ^ (-(places : Int))) :=
    (contains_magnitude h).between hm hmagnitude.le (le_mul_of_one_le_left hunit.le hone)
  have hnear := le_magnitude_of_contains h hcontains
  have hround : toPlaces y.writtenMagnitude places =
      (1 : Int) * (10 : Rat) ^ (-(places : Int)) := by
    apply toPlaces_eq_of_abs_sub_lt
    rw [Int.cast_one, one_mul, abs_lt]
    constructor <;> linarith
  rwa [hround, Int.cast_one, one_mul]

/-- So a double that some number was rounded to by way of places is reached from its own decimal by
the same way. -/
theorem Rounds.toPlaces_written {r : Rat} (h : y.Rounds (toPlaces r places)) (hr : 0 ≤ r) :
    y.Rounds (toPlaces y.writtenMagnitude places) := by
  unfold Rounds
  split
  · next hzero =>
    rw [writtenMagnitude_of_zero hzero, toPlaces_zero]
    positivity
  · next hne =>
    obtain ⟨m, hm⟩ := exists_toPlaces_eq places hr
    exact contains_toPlaces hne (hm ▸ h.contains hne)

theorem writtenMagnitude_nonneg (x : Finite) : 0 ≤ x.writtenMagnitude :=
  x.abs_writtenValue ▸ abs_nonneg _

/-- A decimal that is not rounded to zero by the places is not rounded to zero by the double. -/
theorem significand_ne_zero_of_toPlaces (hpos : 0 < toPlaces x.writtenMagnitude places)
    (hy : y.Rounds (toPlaces x.writtenMagnitude places)) : y.significand ≠ 0 := by
  have hx : x.significand ≠ 0 := by
    intro hx
    rw [writtenMagnitude_of_zero hx, toPlaces_zero] at hpos
    exact lt_irrefl _ hpos
  rcases toPlaces_written_cases hx places with hkept | ⟨-, hbelow, -⟩
  · -- the decimal is handed out as it came in, and so is the double
    have hxr := x.rounds_writtenValue
    rw [abs_writtenValue] at hxr
    rw [hkept] at hy
    have hexp := le_antisymm (hy.exponent_le hxr) (hxr.exponent_le hy)
    have hle := hy.significand_le hxr hexp.symm
    omega
  · intro hzero
    have hmin := two_zpow_le x.canonical.2.1
    have hmagnitude := unit_le_magnitude hx
    have hnear := (abs_le.1 (abs_toPlaces_sub_le x.writtenMagnitude places)).1
    have hunit := le_toPlaces_of_pos hpos
    rw [Rounds, if_pos hzero] at hy
    linarith

/-- Rounding to places does not lead beyond the doubles. -/
theorem toPlaces_lt_overflowThreshold (x : Finite) (places : Nat) :
    toPlaces x.writtenMagnitude places < overflowThreshold := by
  by_cases hx : x.significand = 0
  · rw [writtenMagnitude_of_zero hx, toPlaces_zero]
    exact overflowThreshold_pos
  rcases toPlaces_written_cases hx places with hkept | ⟨hsmall, -, -⟩
  · rw [hkept, ← abs_writtenValue]
    exact x.rounds_writtenValue.lt_overflowThreshold (abs_nonneg _)
  · have hnear := (abs_le.1 (abs_toPlaces_sub_le x.writtenMagnitude places)).2
    have hunit : (10 : Rat) ^ (-(places : Int)) ≤ 1 := by
      rw [zpow_neg, zpow_natCast]
      exact inv_le_one_of_one_le₀ (one_le_pow₀ (by norm_num))
    have hrange : InRange (10 ^ 16 + 1) := inRange_of_bounds (by norm_num) (by norm_num)
    linarith [hrange.thresholds.2]

/-- Rounding to places keeps the sign, unless nothing is left. -/
theorem toPlaces_writtenValue_neg_iff (x : Finite) (places : Nat) :
    toPlaces x.writtenValue places < 0 ↔
      x.negative = true ∧ 0 < toPlaces x.writtenMagnitude places := by
  have hnonneg := toPlaces_nonneg places x.writtenMagnitude_nonneg
  rw [writtenValue_eq]
  split
  · next hneg =>
    rw [neg_one_mul, toPlaces_neg, neg_lt_zero]
    exact ⟨fun hpos => ⟨hneg, hpos⟩, And.right⟩
  · next hpos =>
    rw [one_mul]
    exact ⟨fun hlt => absurd hlt (not_lt.2 hnonneg), fun h => absurd h.1 hpos⟩

theorem abs_toPlaces_writtenValue (x : Finite) (places : Nat) :
    |toPlaces x.writtenValue places| = toPlaces x.writtenMagnitude places := by
  rw [abs_toPlaces, abs_writtenValue]

end Binary64.Finite

namespace Amount

open Finite

/-- The number that the decimal written for a double is rounded to is handed out. -/
theorem leaves_roundToPlaces (x : Finite) (places : Nat) :
    Leaves (toPlaces x.writtenValue places) (roundToPlaces (.finite x) places) := by
  obtain ⟨z, hz, hvalue⟩ := Decimal.exists_roundPlaces_ofFinite x places
  have hstep : roundToPlaces (.finite x) places =
      leave z (Binary64.text (.finite x) ++ " cannot be represented after rounding") := by
    have hexact : liftFault (Decimal.ofBinary64 (.finite x)) = .ok (Decimal.ofFinite x) := rfl
    unfold roundToPlaces
    rw [bind_of_eq_ok hexact, hz]
    rfl
  rw [hstep, ← hvalue]
  exact leaves_leave _ _

/-- Rounding a double to places succeeds with the double nearest to the rounded decimal, and
rounding that one again, to the same places, gives it back. -/
theorem roundToPlaces_idempotent (x : Finite) (places : Nat) :
    ∃ y : Finite, roundToPlaces (.finite x) places = .ok y ∧
      (y.negative = true ↔ toPlaces x.writtenValue places < 0) ∧
      y.Rounds |toPlaces x.writtenValue places| ∧
      roundToPlaces (.finite y) places = .ok y := by
  have hlt := x.toPlaces_lt_overflowThreshold places
  rw [← abs_toPlaces_writtenValue] at hlt
  obtain ⟨y, hy, hsign, hround⟩ := (leaves_roundToPlaces x places).exists_ok hlt
  refine ⟨y, hy, hsign, hround, ?_⟩
  rw [abs_toPlaces_writtenValue] at hround
  have hback := hround.toPlaces_written x.writtenMagnitude_nonneg
  have hnegative : y.negative = true ↔ toPlaces y.writtenValue places < 0 := by
    rw [toPlaces_writtenValue_neg_iff]
    refine ⟨fun hneg => ⟨hneg, ?_⟩, And.left⟩
    -- a sign is there only when something is left, and then the double is not zero
    have hleft := ((toPlaces_writtenValue_neg_iff x places).1 (hsign.1 hneg)).2
    have hne := significand_ne_zero_of_toPlaces hleft hround
    exact pos_of_contains hne (hback.contains hne)
  have hlt' := y.toPlaces_lt_overflowThreshold places
  rw [← abs_toPlaces_writtenValue] at hlt' hback
  obtain ⟨z, hz, hsignZ, hroundZ⟩ := (leaves_roundToPlaces y places).exists_ok hlt'
  rw [hz, hroundZ.unique hback (Bool.eq_iff_iff.2 (hsignZ.trans hnegative.symm))]

end Amount

end UnitLedger
