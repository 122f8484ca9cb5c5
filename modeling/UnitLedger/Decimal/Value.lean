import UnitLedger.Decimal.Basic
set_option autoImplicit false

/-! # Values of decimal numbers

The operations on decimals as operations on the rational numbers they stand for.  A value has one
normal form (`eq_of_toRat_eq`), and rounding to digits leaves a number alone that has no more of them
(`toRat_rounded`).
-/

namespace UnitLedger.Decimal

open Numeral

/-! ## Powers of ten -/

theorem ten_zpow_ne_zero (e : Int) : (10 : Rat) ^ e ≠ 0 :=
  Rat.ne_of_gt (Rat.zpow_pos (by decide))

/-- Zeros at the end of an integer can be counted into the exponent. -/
theorem tdiv_pow_mul_zpow {s : Int} {z : Nat} (h : (10 : Int) ^ z ∣ s) (e : Int) :
    ((s.tdiv (10 ^ z) : Int) : Rat) * (10 : Rat) ^ (e + z) = s * (10 : Rat) ^ e := by
  obtain ⟨c, rfl⟩ := h
  have hpow : (10 : Int) ^ z ≠ 0 := by
    have := Int.pow_pos (n := 10) (m := z) (by decide)
    omega
  rw [Int.mul_tdiv_cancel_left _ hpow, Rat.zpow_add (by decide), Rat.zpow_natCast,
    Rat.intCast_mul, Rat.intCast_pow]
  grind

/-- The larger exponent can be taken down to the smaller one. -/
theorem mul_zpow_of_le (s : Int) {e f : Int} (h : f ≤ e) :
    (s : Rat) * (10 : Rat) ^ e = ((s * 10 ^ (e - f).toNat : Int) : Rat) * (10 : Rat) ^ f := by
  have hexp : e = f + ((e - f).toNat : Int) := by omega
  rw [Rat.intCast_mul, Rat.intCast_pow]
  conv => lhs; rw [hexp, Rat.zpow_add (by decide), Rat.zpow_natCast]
  grind

/-! ## Normal form -/

@[simp] theorem toRat_ofParts (s e : Int) (p : Nat) :
    (ofParts s e p).toRat = s * (10 : Rat) ^ e := by
  unfold ofParts
  split
  · next h => simp [toRat, h]
  · next h =>
    apply tdiv_pow_mul_zpow
    have hdvd := Int.natCast_dvd_natCast.2 (pow_trailingZeros_dvd s.natAbs)
    rw [Int.dvd_natAbs] at hdvd
    simpa using hdvd

theorem toRat_eq_zero_iff (x : Decimal) : x.toRat = 0 ↔ x.significand = 0 := by
  unfold toRat
  constructor
  · intro h
    rcases Rat.mul_eq_zero.1 h with hs | hp
    · exact Rat.intCast_eq_zero_iff.1 hs
    · exact absurd hp (ten_zpow_ne_zero _)
  · intro h
    simp [h]

private theorem eq_of_isNormal_of_le {s t e f : Int} (hs : IsNormal s e) (ht : IsNormal t f)
    (hle : f ≤ e) (h : (s : Rat) * (10 : Rat) ^ e = t * (10 : Rat) ^ f) : s = t ∧ e = f := by
  rw [mul_zpow_of_le s hle] at h
  have hst : s * 10 ^ (e - f).toNat = t := by
    have hpow := ten_zpow_ne_zero f
    exact Rat.intCast_inj.1 (by grind)
  by_cases hz : s = 0
  · subst hz
    rw [Int.zero_mul] at hst
    subst hst
    simp only [IsNormal, if_true] at hs ht
    exact ⟨rfl, hs.trans ht.symm⟩
  · rcases Int.lt_or_eq_of_le hle with hlt | heq
    · have htne : t ≠ 0 := by
        rw [← hst]
        exact Int.mul_ne_zero hz (Int.ne_of_gt (Int.pow_pos (by decide)))
      simp only [IsNormal, htne, if_false] at ht
      obtain ⟨k, hk⟩ : ∃ k, (e - f).toNat = k + 1 := ⟨(e - f).toNat - 1, by omega⟩
      rw [hk, Int.pow_succ, ← Int.mul_assoc] at hst
      omega
    · subst heq
      simpa using hst

theorem eq_of_toRat_eq {x y : Decimal} (h : x.toRat = y.toRat) :
    x.significand = y.significand ∧ x.exponent = y.exponent := by
  rcases Int.le_total y.exponent x.exponent with hle | hle
  · exact eq_of_isNormal_of_le x.normal y.normal hle h
  · have := eq_of_isNormal_of_le y.normal x.normal hle h.symm
    exact ⟨this.1.symm, this.2.symm⟩

/-- Decimals of one value and one precision are the same. -/
theorem eq_of_toRat_precision {x y : Decimal} (hvalue : x.toRat = y.toRat)
    (hprecision : x.precision = y.precision) : x = y := by
  obtain ⟨hsignificand, hexponent⟩ := eq_of_toRat_eq hvalue
  cases x
  cases y
  dsimp only at hsignificand hexponent hprecision
  subst hsignificand hexponent hprecision
  rfl

/-! ## Exact results -/

/-- A number of no more digits than the precision is not changed. -/
theorem toRat_rounded {s : Int} {p : Nat} (h : digitCount s.natAbs ≤ p) (e : Int) :
    (rounded s e p).toRat = s * (10 : Rat) ^ e := by
  simp [rounded, h]

theorem toRat_neg (x : Decimal) : x.neg.toRat = -x.toRat := by
  simp only [toRat, Decimal.neg, Rat.intCast_neg, Rat.neg_mul]

end UnitLedger.Decimal
