import UnitLedger.Proofs.Decimal.Binary
import UnitLedger.Proofs.Decimal.Chain
set_option autoImplicit false

/-! # Numbers that come in, rounded to places

A number comes in from a text, from a word or from a double, with fifty digits at most and at the
precision that keeps them (`Entered.settled`).  Rounding scales it, takes the floor off, doubles
what is left, compares that with one and scales back.  Wherever the point lies among the fifty
digits, none of these steps loses what the result depends on (`roundPlaces_of_entered`), unless the
scaled number has an exponent beyond the last one (`roundPlaces_of_last_exponent`).
-/

namespace UnitLedger.Decimal

open Exact

/-- The ways for a number to come in. -/
inductive Entered : Decimal → Prop
  | text {text : String} {x : Decimal} (h : ofText text = .ok x) : Entered x
  | word (n : Int64) : Entered (ofInt n.toInt)
  | double {b : Binary64} {x : Decimal} (h : ofBinary64 b = .ok x) : Entered x

/-- Whichever way it is, the last thing done is rounding to the working precision. -/
theorem Entered.exists_rounded {x : Decimal} (h : x.Entered) :
    ∃ s e, x = rounded s e workingPrecision := by
  cases h with
  | text h => exact exists_rounded_of_ofText h
  | word n => exact ⟨_, _, rfl⟩
  | @double b _ h =>
    cases b with
    | finite y =>
      cases h
      exact ⟨_, _, rfl⟩
    | infinite negative => cases h
    | nan => cases h

theorem Entered.settled {x : Decimal} (h : x.Entered) : x.Settled := by
  obtain ⟨s, e, rfl⟩ := h.exists_rounded
  exact settled_rounded s e

theorem settled_ofFinite (x : Binary64.Finite) : (ofFinite x).Settled :=
  (Entered.double (b := .finite x) rfl).settled

/-- Scaling up adds the places to the exponent. -/
theorem Settled.exponent_scaled {x : Decimal} (hx : x.Settled) (hne : x.significand ≠ 0)
    (places : Nat) : (x.mul ((ofInt 10).pow places)).exponent = x.exponent + places := by
  have hnormal : IsNormal x.significand (x.exponent + places) := by
    have := x.normal
    rwa [IsNormal, if_neg hne] at this ⊢
  have hvalue : (x.mul ((ofInt 10).pow places)).toRat =
      (⟨x.significand, x.exponent + places, x.precision, hnormal⟩ : Decimal).toRat := by
    rw [hx.toRat_scaled, toRat, toRat, zpow_add₀ (by norm_num), zpow_natCast, mul_assoc]
  exact (eq_of_toRat_eq hvalue).2

/-- A number that has no more digits than arithmetic keeps is rounded to places exactly, as long as
the exponent of the scaled number has a place in its word: the result has no more digits than the
number. -/
theorem Settled.roundPlaces {x : Decimal} (hx : x.Settled) {places : Nat}
    (hword : places < 2 ^ 32 → x.exponent + places < 2 ^ 63) :
    ∃ y, x.roundPlaces places = .ok y ∧ y.toRat = toPlaces x.toRat places := by
  obtain ⟨y, hy, hvalue, -⟩ :=
    hx.exists_roundScaled (keeps_toPlaces (by decide) hx.keepsWorking places)
  refine ⟨y, ?_, hvalue⟩
  rw [Decimal.roundPlaces, scaleUp_eq, hy]
  intro hplaces
  by_cases hzero : x.significand = 0
  · have hscaled : (x.mul ((ofInt 10).pow places)).toRat = 0 := by
      rw [hx.toRat_scaled, (toRat_eq_zero_iff x).2 hzero, zero_mul]
    have hnormal := (x.mul ((ofInt 10).pow places)).normal
    rw [IsNormal, if_pos ((toRat_eq_zero_iff _).1 hscaled)] at hnormal
    rw [hnormal]
    decide
  · rw [hx.exponent_scaled hzero]
    exact hword hplaces

/-- The decimals of doubles have small exponents, so places do not take them out of the word. -/
theorem exists_roundPlaces_ofFinite (x : Binary64.Finite) (places : Nat) :
    ∃ y, (ofFinite x).roundPlaces places = .ok y ∧ y.toRat = toPlaces x.writtenValue places := by
  have hsize : |(ofFinite x).toRat| ≤ 10 ^ 309 := by
    rw [toRat_ofFinite]
    have hlt := x.rounds_writtenValue.lt_overflowThreshold (abs_nonneg _)
    exact_mod_cast hlt.le.trans Binary64.pow_ten_thresholds.2
  have hexponent := exponent_le_of_abs_le hsize
  rw [← toRat_ofFinite]
  exact (settled_ofFinite x).roundPlaces fun _ => by omega

end UnitLedger.Decimal
