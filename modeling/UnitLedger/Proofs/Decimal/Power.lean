import UnitLedger.Proofs.Decimal.Integer
import Mathlib.Data.Nat.Prime.Basic
set_option autoImplicit false

/-! # Powers of decimals

A power is computed by one product after the other, and each of them is rounded.  Powers of a number
in normal form are in normal form (`isNormal_pow`), so no power has more digits than a later one
(`Keeps.pow_of_le`), and when the last one fits the working precision nothing is lost on the way
(`toRat_pow_of_keeps`).
-/

namespace UnitLedger.Decimal

open Numeral

/-! ## Digits of powers -/

/-- A power ends in a zero only if the number does, because ten is a product of different primes. -/
theorem pow_mod_ten_ne_zero {m : Nat} (h : m % 10 ≠ 0) (n : Nat) : m ^ n % 10 ≠ 0 := by
  intro hpow
  have hten : 10 ∣ m ^ n := Nat.dvd_of_mod_eq_zero hpow
  have htwo : 2 ∣ m := Nat.prime_two.dvd_of_dvd_pow (dvd_trans (by decide) hten)
  have hfive : 5 ∣ m := Nat.prime_five.dvd_of_dvd_pow (dvd_trans (by decide) hten)
  have hm : 2 * 5 ∣ m := Nat.Coprime.mul_dvd_of_dvd_of_dvd (by decide) htwo hfive
  exact h (Nat.mod_eq_zero_of_dvd hm)

theorem isNormal_pow {s e : Int} (h : IsNormal s e) (n : Nat) : IsNormal (s ^ n) (e * n) := by
  unfold IsNormal at h ⊢
  by_cases hs : s = 0
  · rw [if_pos hs] at h
    subst hs h
    cases n with
    | zero => decide
    | succ n => simp
  · rw [if_neg hs] at h
    rw [if_neg (pow_ne_zero n hs), Int.natAbs_pow]
    exact pow_mod_ten_ne_zero h n

/-- The power of a number without any rounding. -/
def exactPow (x : Decimal) (n : Nat) : Decimal :=
  ⟨x.significand ^ n, x.exponent * n, x.precision, isNormal_pow x.normal n⟩

theorem toRat_exactPow (x : Decimal) (n : Nat) : (x.exactPow n).toRat = x.toRat ^ n := by
  rw [toRat, toRat, exactPow, mul_pow, zpow_mul, zpow_natCast, Int.cast_pow]

theorem length_exactPow (x : Decimal) (n : Nat) :
    (x.exactPow n).length = digitCount (x.significand.natAbs ^ n) := by
  rw [length, exactPow, Int.natAbs_pow]

/-- What has room for a power has room for the powers before it. -/
theorem Keeps.pow_of_le {x : Decimal} {p n k : Nat} (h : Keeps p (x.toRat ^ n)) (hk : k ≤ n) :
    Keeps p (x.toRat ^ k) := by
  by_cases hp : p = 0
  · exact Or.inl hp
  rw [← toRat_exactPow, ← length_le_iff_keeps _ hp, length_exactPow] at h ⊢
  by_cases hs : x.significand.natAbs = 0
  · have hone : digitCount 1 ≤ p := (digitCount_le_iff _ _).2 (Nat.one_lt_pow hp (by decide))
    have hsmall : 0 ^ k ≤ 1 := by cases k <;> simp
    rw [hs]
    exact (digitCount_mono hsmall).trans hone
  · exact (digitCount_mono (Nat.pow_le_pow_right (Nat.pos_of_ne_zero hs) hk)).trans h

/-! ## Computed powers -/

theorem pow_eq_mul (x : Decimal) (n : Nat) : x.pow (n + 1) = (x.pow n).mul x := rfl

theorem le_pow_precision (x : Decimal) (n : Nat) : workingPrecision ≤ (x.pow n).precision := by
  induction n with
  | zero => exact (ofInt_precision 1).ge
  | succ n ih =>
    rw [pow_eq_mul, mul_precision]
    exact ih.trans (Nat.le_max_left _ _)

theorem pow_precision {x : Decimal} (hx : x.precision ≤ workingPrecision) (n : Nat) :
    (x.pow n).precision = workingPrecision := by
  induction n with
  | zero => exact ofInt_precision 1
  | succ n ih => rw [pow_eq_mul, mul_precision, ih, Nat.max_eq_left hx]

/-- A power that fits the working precision is computed without loss. -/
theorem toRat_pow_of_keeps {x : Decimal} {n : Nat} (h : Keeps workingPrecision (x.toRat ^ n)) :
    (x.pow n).toRat = x.toRat ^ n := by
  induction n with
  | zero =>
    rw [pow_zero]
    exact toRat_ofInt_one
  | succ n ih =>
    have hvalue := ih (h.pow_of_le (Nat.le_succ n))
    have hroom : workingPrecision ≤ max (x.pow n).precision x.precision :=
      (le_pow_precision x n).trans (Nat.le_max_left _ _)
    have hproduct : (x.pow n).toRat * x.toRat = x.toRat ^ (n + 1) := by
      rw [hvalue, pow_succ]
    rw [pow_eq_mul, toRat_mul_of_keeps, hproduct]
    rw [hproduct]
    exact h.mono (by decide) hroom

end UnitLedger.Decimal
