import UnitLedger.Proofs.Decimal.Precision
set_option autoImplicit false

/-! # Products and quotients of decimals

Each operation gives the exact result when its precision keeps that result, and is off by half a
unit of the last digit at most when it does not.  For a quotient the exact part says that long
division is carried far enough.
-/

namespace UnitLedger.Decimal

open Numeral

/-! ## Products -/

theorem toRat_mul_toRat (x y : Decimal) :
    x.toRat * y.toRat =
      ((x.significand * y.significand : Int) : Rat) * (10 : Rat) ^ (x.exponent + y.exponent) := by
  rw [toRat, toRat, Rat.zpow_add (by decide), Rat.intCast_mul]
  ring

theorem toRat_mul_of_keeps {x y : Decimal}
    (h : Keeps (max x.precision y.precision) (x.toRat * y.toRat)) :
    (x.mul y).toRat = x.toRat * y.toRat := by
  rw [toRat_mul_toRat] at h ⊢
  exact toRat_rounded_of_keeps h

theorem abs_mul_sub_le (x y : Decimal) {p : Nat} (hp : p ≠ 0)
    (hmax : max x.precision y.precision = p) :
    |(x.mul y).toRat - x.toRat * y.toRat| ≤
      |x.toRat * y.toRat| * (10 : Rat) ^ (1 - (p : Int)) / 2 := by
  rw [toRat_mul_toRat, Decimal.mul, hmax]
  exact abs_rounded_sub_le _ _ hp

@[simp] theorem mul_precision (x y : Decimal) :
    (x.mul y).precision = max x.precision y.precision := rounded_precision _ _ _

/-! ## Quotients -/

/-- The remainder of a truncated division can be divided further on its own. -/
theorem tdiv_mul_add_tdiv (s : Int) {t c : Int} (ht : t ≠ 0) (hc : 0 < c) :
    (s * c).tdiv t = s.tdiv t * c + (s.tmod t * c).tdiv t ∧
      (s * c).tmod t = (s.tmod t * c).tmod t := by
  have hsplit : (s.tmod t * c).tmod t + t * (s.tdiv t * c + (s.tmod t * c).tdiv t) = s * c := by
    have hrest := Int.tmod_add_mul_tdiv (s.tmod t * c) t
    have hs := Int.tmod_add_mul_tdiv s t
    calc (s.tmod t * c).tmod t + t * (s.tdiv t * c + (s.tmod t * c).tdiv t)
        = (s.tmod t * c).tmod t + t * (s.tmod t * c).tdiv t + t * s.tdiv t * c := by ring
      _ = (s.tmod t + t * s.tdiv t) * c := by rw [hrest]; ring
      _ = s * c := by rw [hs]
  have hsmall : ((s.tmod t * c).tmod t).natAbs < t.natAbs := by
    rw [Int.natAbs_tmod]
    exact Nat.mod_lt _ (by omega)
  rcases Int.le_total 0 s with hs | hs
  · have hrest : 0 ≤ s.tmod t * c := Int.mul_nonneg (Int.tmod_nonneg t hs) hc.le
    have := Int.tmod_nonneg t hrest
    exact (Int.tdiv_tmod_unique (Int.mul_nonneg hs hc.le) ht).2 ⟨hsplit, this, by omega⟩
  · have hrest : s.tmod t * c ≤ 0 := by
      have : 0 ≤ (-s).tmod t * c := Int.mul_nonneg (Int.tmod_nonneg t (by omega)) hc.le
      rw [Int.neg_tmod, Int.neg_mul] at this
      omega
    have : (s.tmod t * c).tmod t ≤ 0 := by
      have := Int.tmod_nonneg t (show 0 ≤ -(s.tmod t * c) by omega)
      rw [Int.neg_tmod] at this
      omega
    have hsc : s * c ≤ 0 := Int.mul_nonpos_of_nonpos_of_nonneg hs hc.le
    exact (Int.tdiv_tmod_unique' hsc ht).2 ⟨hsplit, by omega, this⟩

/-- The digits that are appended to a dividend less than the divisor. -/
theorem pow_mul_le_of_lt {a b p : Nat} (hp : p ≠ 0) (ha : a ≠ 0) (h : a < b) :
    10 ^ (p - 1) * b ≤ a * 10 ^ (digitCount b + p - digitCount a) := by
  have hle := digitCount_mono h.le
  have hpos := (digitCount_pos_iff a).2 ha
  calc 10 ^ (p - 1) * b
      ≤ 10 ^ (p - 1) * 10 ^ digitCount b := Nat.mul_le_mul_left _ (lt_pow_digitCount _).le
    _ = 10 ^ (digitCount a - 1) * 10 ^ (digitCount b + p - digitCount a) := by
        rw [← Nat.pow_add, ← Nat.pow_add]
        congr 1
        omega
    _ ≤ a * 10 ^ (digitCount b + p - digitCount a) :=
        Nat.mul_le_mul_right _ (pow_le_of_ne_zero ha)

/-- The digits that are appended when the quotient `c` of the integers has some already. -/
theorem pow_mul_le_of_mul_le {a b c p : Nat} (hc : c ≠ 0) (h : c * b ≤ a) :
    10 ^ (p - 1) * b ≤ a * 10 ^ (p - digitCount c) := by
  have hpos := (digitCount_pos_iff c).2 hc
  calc 10 ^ (p - 1) * b
      ≤ 10 ^ (digitCount c - 1 + (p - digitCount c)) * b :=
        Nat.mul_le_mul_right _ (Nat.pow_le_pow_right (by decide) (by omega))
    _ = 10 ^ (digitCount c - 1) * b * 10 ^ (p - digitCount c) := by
        rw [Nat.pow_add, Nat.mul_right_comm]
    _ ≤ c * b * 10 ^ (p - digitCount c) :=
        Nat.mul_le_mul_right _ (Nat.mul_le_mul_right _ (pow_le_of_ne_zero hc))
    _ ≤ a * 10 ^ (p - digitCount c) := Nat.mul_le_mul_right _ h

/-- Long division that does not come out even appends so many digits that the quotient has all those
of the precision, and rounds the last remainder. -/
theorem exists_longDivision {s t : Int} {p : Nat} (hp : p ≠ 0) (ht : t ≠ 0) (hr : s.tmod t ≠ 0) :
    ∃ k, 10 ^ (p - 1) * t.natAbs ≤ s.natAbs * 10 ^ k ∧
      longDivision s t p =
        ((s * 10 ^ k).tdiv t +
          if t.natAbs ≤ 2 * ((s * 10 ^ k).tmod t).natAbs then s.sign * t.sign else 0, k) := by
  have hshape : ∀ k : Nat, (s * 10 ^ k).tdiv t = s.tdiv t * 10 ^ k + (s.tmod t * 10 ^ k).tdiv t ∧
      (s * 10 ^ k).tmod t = (s.tmod t * 10 ^ k).tmod t :=
    fun k => tdiv_mul_add_tdiv s ht (by positivity)
  have hs : s ≠ 0 := by
    rintro rfl
    exact hr (Int.zero_tmod t)
  by_cases hq : s.tdiv t = 0
  · have hrs : s.tmod t = s := by
      have := Int.tmod_add_mul_tdiv s t
      rwa [hq, Int.mul_zero, Int.add_zero] at this
    have hlt : s.natAbs < t.natAbs := by
      rw [← hrs, Int.natAbs_tmod]
      exact Nat.mod_lt _ (Int.natAbs_pos.2 ht)
    refine ⟨digitCount t.natAbs + p - digitCount s.natAbs, ?_, ?_⟩
    · exact pow_mul_le_of_lt hp (Int.natAbs_ne_zero.2 hs) hlt
    · obtain ⟨hdiv, hmod⟩ := hshape (digitCount t.natAbs + p - digitCount s.natAbs)
      rw [hdiv, hmod]
      simp only [longDivision, hrs, hs, if_false, hq, if_true]
  · have hmul : (s.tdiv t).natAbs * t.natAbs ≤ s.natAbs := by
      rw [Int.natAbs_tdiv]
      exact Nat.div_mul_le_self _ _
    refine ⟨p - digitCount (s.tdiv t).natAbs, ?_, ?_⟩
    · exact pow_mul_le_of_mul_le (Int.natAbs_ne_zero.2 hq) hmul
    · obtain ⟨hdiv, hmod⟩ := hshape (p - digitCount (s.tdiv t).natAbs)
      rw [hdiv, hmod]
      simp only [longDivision, hr, if_false, hq]

/-- Rounding the last remainder away from zero leaves half a divisor at most. -/
theorem natAbs_away_sub_le (s : Int) {t r : Int} (hsmall : r.natAbs < t.natAbs)
    (hsign : r.sign = s.sign ∨ r = 0) :
    2 * ((if t.natAbs ≤ 2 * r.natAbs then s.sign * t.sign else 0) * t - r).natAbs ≤ t.natAbs := by
  split
  · next hle =>
    have hr : r.sign = s.sign := hsign.resolve_right (by omega)
    have heq : s.sign * t.sign * t - r = s.sign * ((t.natAbs : Int) - r.natAbs) := by
      rw [mul_assoc, Int.sign_mul_self_eq_abs, Int.abs_eq_natAbs, mul_sub]
      rw [← hr, Int.sign_mul_natAbs]
    have hone : s.sign.natAbs ≤ 1 := by
      rcases Int.sign_trichotomy s with h | h | h <;> rw [h] <;> decide
    rw [heq, Int.natAbs_mul]
    have := Nat.mul_le_mul_right ((t.natAbs : Int) - r.natAbs).natAbs hone
    omega
  · rw [zero_mul, zero_sub, Int.natAbs_neg]
    omega

/-- The digits of the quotient, the last remainder being rounded, are half a unit off at most. -/
theorem abs_tdiv_add_away_sub_le (s : Int) {t : Int} (ht : t ≠ 0) (k : Nat) :
    |(((s * 10 ^ k).tdiv t +
        if t.natAbs ≤ 2 * ((s * 10 ^ k).tmod t).natAbs then s.sign * t.sign else 0 : Int) : Rat) -
      s / t * 10 ^ k| ≤ 1 / 2 := by
  have htr : (t : Rat) ≠ 0 := Int.cast_ne_zero.2 ht
  have hsplit := Int.tmod_add_mul_tdiv (s * 10 ^ k) t
  have hsmall : ((s * 10 ^ k).tmod t).natAbs < t.natAbs := by
    rw [Int.natAbs_tmod]
    exact Nat.mod_lt _ (by omega)
  have hsign : ((s * 10 ^ k).tmod t).sign = s.sign ∨ (s * 10 ^ k).tmod t = 0 := by
    rw [← Int.sign_eq_zero_iff_zero, Int.sign_tmod, Int.sign_mul]
    split
    · exact Or.inr rfl
    · left
      rw [Int.sign_eq_one_of_pos (show (0 : Int) < 10 ^ k by positivity), mul_one]
  have hnear := natAbs_away_sub_le s hsmall hsign
  generalize (if t.natAbs ≤ _ then s.sign * t.sign else 0) = away at hnear ⊢
  generalize (s * 10 ^ k).tdiv t = d at hsplit ⊢
  generalize (s * 10 ^ k).tmod t = r at hsplit hnear
  have hdiff : ((d + away : Int) : Rat) - s / t * 10 ^ k = ((away * t - r : Int) : Rat) / t := by
    have hcast : (r : Rat) + t * d = s * 10 ^ k := by exact_mod_cast hsplit
    push_cast
    field_simp
    linarith
  have hcast := Rat.natCast_le_natCast.2 hnear
  rw [Nat.cast_mul, Nat.cast_natAbs, Nat.cast_natAbs, Int.cast_abs, Int.cast_abs] at hcast
  rw [hdiff, abs_div, div_le_iff₀ (abs_pos.2 htr)]
  push_cast at hcast ⊢
  linarith

/-- A quotient of no more digits than the precision comes out even, once it has been given all the
digits of the precision. -/
theorem tmod_eq_zero_of_keeps {s t : Int} {p k : Nat} (hp : p ≠ 0) (ht : t ≠ 0)
    (hlarge : (10 : Rat) ^ (p - 1) ≤ |(s : Rat) / t * 10 ^ k|) (hkeeps : Keeps p ((s : Rat) / t)) :
    (s * 10 ^ k).tmod t = 0 := by
  have htr : (t : Rat) ≠ 0 := Int.cast_ne_zero.2 ht
  obtain ⟨a, f, ha, hvalue⟩ := hkeeps.resolve_left hp
  have hscaled : (s : Rat) / t * 10 ^ k = a * (10 : Rat) ^ (f + k) := by
    rw [hvalue, Rat.zpow_add (by decide), Rat.zpow_natCast, mul_assoc]
  -- the digits that were appended reach the last one of the quotient
  have hends : 0 ≤ f + k := by
    by_contra hneg
    have hpow : (10 : Rat) ^ (f + k) ≤ 10 ^ (-1 : Int) :=
      zpow_le_zpow_right₀ (by norm_num) (by omega)
    have habs : |(a : Rat)| < 10 ^ (p - 1) * 10 := by
      have hlt := Rat.natCast_lt_natCast.2 ((digitCount_le_iff _ _).1 ha)
      rw [Nat.cast_natAbs, Int.cast_abs] at hlt
      push_cast at hlt
      rwa [← pow_succ, Nat.sub_add_cancel (by omega)]
    rw [hscaled, abs_mul, abs_of_pos (show (0 : Rat) < 10 ^ (f + k) by positivity)] at hlarge
    have := mul_le_mul_of_nonneg_left hpow (abs_nonneg (a : Rat))
    rw [zpow_neg_one] at this
    linarith
  have hmul : s * 10 ^ k = t * (a * 10 ^ (f + k).toNat) := by
    have hcast : (s : Rat) * 10 ^ k = t * (a * 10 ^ (f + k).toNat) := by
      rw [← zpow_natCast (10 : Rat) (f + k).toNat, Int.toNat_of_nonneg hends, ← hscaled]
      field_simp
    exact_mod_cast hcast
  exact Int.dvd_iff_tmod_eq_zero.1 ⟨_, hmul⟩

/-- The quotient of the significands as long division leaves it: off by half a unit at most, and
exact when the quotient has no more digits than the precision. -/
theorem longDivision_spec {s t : Int} {p : Nat} (hp : p ≠ 0) (ht : t ≠ 0) :
    ∃ (q : Int) (k : Nat), longDivision s t p = (q, k) ∧
      |(q : Rat) - s / t * 10 ^ k| ≤ |(s : Rat) / t * 10 ^ k| * (10 : Rat) ^ (1 - (p : Int)) / 2 ∧
      (Keeps p (s / t) → (q : Rat) = s / t * 10 ^ k) := by
  have htr : (t : Rat) ≠ 0 := Int.cast_ne_zero.2 ht
  have heven : ∀ k : Nat, (s * 10 ^ k).tmod t = 0 →
      (((s * 10 ^ k).tdiv t : Int) : Rat) = s / t * 10 ^ k := by
    intro k hr
    have hs := Int.tdiv_mul_add_tmod (s * 10 ^ k) t
    rw [hr, Int.add_zero] at hs
    rw [div_mul_eq_mul_div, eq_div_iff htr]
    exact_mod_cast hs
  by_cases hr : s.tmod t = 0
  · have hexact := heven 0 (by rwa [pow_zero, mul_one])
    rw [pow_zero (10 : Int), mul_one] at hexact
    refine ⟨s.tdiv t, 0, by simp [longDivision, hr], ?_, fun _ => hexact⟩
    rw [hexact, sub_self, abs_zero]
    positivity
  · obtain ⟨k, hlarge, heq⟩ := exists_longDivision hp ht hr
    have hlarge' : (10 : Rat) ^ (p - 1) ≤ |(s : Rat) / t * 10 ^ k| := by
      have hcast := Rat.natCast_le_natCast.2 hlarge
      rw [Nat.cast_mul, Nat.cast_mul, Nat.cast_natAbs, Nat.cast_natAbs] at hcast
      push_cast at hcast
      rw [div_mul_eq_mul_div, abs_div, abs_mul, abs_of_pos (show (0 : Rat) < 10 ^ k by positivity),
        le_div_iff₀ (abs_pos.2 htr)]
      exact hcast
    refine ⟨_, k, heq, ?_, ?_⟩
    · exact (abs_tdiv_add_away_sub_le s ht k).trans (half_le_of_pow_le hp hlarge')
    · intro hkeeps
      have hzero := tmod_eq_zero_of_keeps hp ht hlarge' hkeeps
      have hnone : ¬ t.natAbs ≤ 2 * (0 : Int).natAbs := by
        rw [Int.natAbs_zero]
        omega
      rw [← heven k hzero, hzero, if_neg hnone, Int.add_zero]

theorem toRat_div_toRat (x y : Decimal) :
    x.toRat / y.toRat =
      (x.significand : Rat) / y.significand * (10 : Rat) ^ (x.exponent - y.exponent) := by
  rw [toRat, toRat, zpow_sub₀ (by norm_num), mul_div_mul_comm]

/-- Division by a number other than zero succeeds, is off by half a unit of the last digit at most,
and is exact when the quotient has no more digits than the precision. -/
theorem exists_div {x y : Decimal} {p : Nat} (hy : y.toRat ≠ 0) (hp : p ≠ 0)
    (hmax : max x.precision y.precision = p) :
    ∃ z, x.div y = .ok z ∧ z.precision = p ∧
      |z.toRat - x.toRat / y.toRat| ≤ |x.toRat / y.toRat| * (10 : Rat) ^ (1 - (p : Int)) / 2 ∧
      (Keeps p (x.toRat / y.toRat) → z.toRat = x.toRat / y.toRat) := by
  have hsig : y.significand ≠ 0 := fun h => hy ((toRat_eq_zero_iff y).2 h)
  obtain ⟨q, k, heq, hnear, hexact⟩ := longDivision_spec (s := x.significand) hp hsig
  have hdiv : x.div y = .ok (ofParts q (x.exponent - y.exponent - k) p) := by
    simp only [Decimal.div, hsig, if_false, hmax, heq]
  have hvalue : x.toRat / y.toRat =
      (x.significand : Rat) / y.significand * 10 ^ k *
        (10 : Rat) ^ (x.exponent - y.exponent - k) := by
    rw [toRat_div_toRat, zpow_sub₀ (by norm_num : (10 : Rat) ≠ 0) (x.exponent - y.exponent),
      zpow_natCast]
    field_simp
  have hunit : (0 : Rat) < 10 ^ (x.exponent - y.exponent - k) := by positivity
  refine ⟨_, hdiv, ofParts_precision _ _ p, ?_, ?_⟩
  · rw [toRat_ofParts, hvalue, ← sub_mul, abs_mul, abs_mul, abs_of_pos hunit]
    have := mul_le_mul_of_nonneg_right hnear hunit.le
    linarith
  · intro hkeeps
    have hshift := hkeeps.mul_zpow (-(x.exponent - y.exponent))
    rw [toRat_div_toRat, mul_assoc, ← zpow_add₀ (by norm_num), add_neg_cancel, zpow_zero,
      mul_one] at hshift
    rw [toRat_ofParts, hvalue, hexact hshift]

end UnitLedger.Decimal
