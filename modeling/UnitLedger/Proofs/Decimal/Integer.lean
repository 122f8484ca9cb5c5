import UnitLedger.Decimal.Rounding
import UnitLedger.Proofs.Decimal.Arithmetic
import UnitLedger.Proofs.Decimal.Sum
import UnitLedger.Proofs.Exact
set_option autoImplicit false

/-! # Decimals rounded to integers

The floor of a decimal is the floor of its value, and rounding half away is the rounding of its
value, as long as the number has no more digits than the working precision.  The floor lowers the
precision by the digits it takes off; the difference to it needs only those that are left.
-/

namespace UnitLedger.Decimal

open Numeral Exact

/-! ## Small values -/

@[simp] theorem ofInt_precision (n : Int) : (ofInt n).precision = workingPrecision :=
  rounded_precision _ _ _

theorem toRat_ofInt {n : Int} (h : Keeps workingPrecision n) : (ofInt n).toRat = n := by
  have hone : (n : Rat) = n * (10 : Rat) ^ (0 : Int) := by rw [zpow_zero, mul_one]
  rw [hone] at h ⊢
  exact toRat_rounded_of_keeps h

theorem keeps_intCast {n : Int} {p : Nat} (h : digitCount n.natAbs ≤ p) : Keeps p (n : Rat) := by
  have hkeeps := keeps_of_digitCount_le h 0
  rwa [zpow_zero, mul_one] at hkeeps

theorem keeps_intCast_of_lt {n : Int} {p : Nat} (h : n.natAbs < 10 ^ p) : Keeps p (n : Rat) :=
  keeps_intCast ((digitCount_le_iff _ _).2 h)

@[simp] theorem toRat_ofInt_one : (ofInt 1).toRat = 1 := by
  rw [toRat_ofInt (keeps_intCast_of_lt (by decide))]
  norm_num

@[simp] theorem toRat_ofInt_two : (ofInt 2).toRat = 2 := by
  rw [toRat_ofInt (keeps_intCast_of_lt (by decide))]
  norm_num

/-! ## Floor -/

theorem toRat_abs (x : Decimal) : x.abs.toRat = |x.toRat| := by
  unfold Decimal.abs
  by_cases h : x.isNegative = true
  · rw [if_pos h, toRat_neg, abs_of_neg ((isNegative_iff x).1 h)]
  · rw [if_neg h, abs_of_nonneg (not_lt.1 fun hc => h ((isNegative_iff x).2 hc))]

@[simp] theorem abs_precision (x : Decimal) : x.abs.precision = x.precision := by
  unfold Decimal.abs
  split <;> rfl

@[simp] theorem length_abs (x : Decimal) : x.abs.length = x.length := by
  unfold Decimal.abs
  split
  · simp [length, Decimal.neg]
  · rfl

/-- A number without fraction digits is a whole number. -/
theorem toRat_of_exponent_nonneg {x : Decimal} (h : 0 ≤ x.exponent) :
    x.toRat = ((x.significand * 10 ^ x.exponent.toNat : Int) : Rat) := by
  have hexp : x.exponent = (x.exponent.toNat : Int) := by omega
  rw [toRat]
  conv => lhs; rw [hexp, zpow_natCast]
  push_cast
  ring

/-- A number with fraction digits, as a fraction. -/
theorem toRat_of_exponent_neg {x : Decimal} (h : x.exponent < 0) :
    x.toRat = (x.significand : Rat) / ((10 ^ (-x.exponent).toNat : Nat) : Rat) := by
  have hexp : x.exponent = -((-x.exponent).toNat : Int) := by omega
  rw [toRat]
  conv => lhs; rw [hexp, zpow_neg, zpow_natCast]
  push_cast
  rw [div_eq_mul_inv]

theorem abs_toRat_lt_one_of_isTiny {x : Decimal} (h : x.isTiny = true) : |x.toRat| < 1 := by
  have hbound := digitCount_le_digitBound x.significand.natAbs
  have htiny : x.exponent + digitBound x.significand.natAbs < -1 := of_decide_eq_true h
  calc |x.toRat| < (10 : Rat) ^ x.top := abs_toRat_lt_pow_top x
    _ ≤ 10 ^ (0 : Int) := zpow_le_zpow_right₀ (by norm_num) (by unfold top length; omega)
    _ = 1 := zpow_zero _

/-- Truncated division rounds towards zero, and one below where something negative is left. -/
theorem ite_tmod_neg_eq_ediv (s : Int) {c : Int} (hc : 0 < c) :
    (if s.tmod c < 0 then s.tdiv c - 1 else s.tdiv c) = s / c := by
  have hsplit := Int.tmod_add_mul_tdiv s c
  have hsmall : (s.tmod c).natAbs < c.natAbs := by
    rw [Int.natAbs_tmod]
    exact Nat.mod_lt _ (by omega)
  symm
  split
  · refine ((Int.ediv_emod_unique hc (r := s.tmod c + c)).2 ⟨?_, ?_, ?_⟩).1
    · rw [mul_sub, mul_one]
      omega
    · omega
    · omega
  · exact ((Int.ediv_emod_unique hc (r := s.tmod c)).2 ⟨hsplit, by omega, by omega⟩).1

theorem toRat_floor (x : Decimal) : x.floor.toRat = ⌊x.toRat⌋ := by
  unfold floor
  split
  · next h => rw [toRat_of_exponent_nonneg h, Int.floor_intCast]
  split
  · next hneg htiny =>
    have hlt := abs_lt.1 (abs_toRat_lt_one_of_isTiny htiny)
    rw [toRat_ofParts, zpow_zero, mul_one, Int.cast_inj, eq_comm, Int.floor_eq_iff]
    split
    · next h =>
      rw [isNegative_iff] at h
      constructor <;> push_cast <;> linarith
    · next h =>
      rw [isNegative_iff] at h
      constructor <;> push_cast <;> linarith
  · next hneg _ =>
    rw [toRat_of_exponent_neg (not_le.1 hneg), Rat.floor_intCast_div_natCast]
    have hcast : (((10 ^ (-x.exponent).toNat : Nat) : Nat) : Int) = 10 ^ (-x.exponent).toNat := by
      push_cast
      rfl
    rw [cut_eq, toRat_ofParts, zpow_zero, mul_one, Int.cast_inj, hcast]
    exact ite_tmod_neg_eq_ediv _ (by positivity)

/-- The floor of a number is no more precise than the number. -/
theorem floor_precision_le (x : Decimal) : x.floor.precision ≤ x.precision := by
  unfold floor
  split
  · exact Nat.le_refl _
  split
  · rw [ofParts_precision]
    exact Nat.zero_le _
  · next hneg _ =>
    rw [cut_eq, ofParts_precision]
    omega

/-- The fraction of a number that is not negative has no more digits than the number. -/
theorem keeps_fract {x : Decimal} {p : Nat} (h : 0 ≤ x.toRat) (hlen : x.length ≤ p) :
    Keeps p (x.toRat - ⌊x.toRat⌋) := by
  by_cases he : 0 ≤ x.exponent
  · rw [toRat_of_exponent_nonneg he, Int.floor_intCast, sub_self]
    have hzero := keeps_intCast (n := 0) (p := p) (by simp)
    rwa [Int.cast_zero] at hzero
  · have hsig : 0 ≤ x.significand := by
      have := (toRat_neg_iff x).not.1 (not_lt.2 h)
      omega
    have hexp : x.exponent = -((-x.exponent).toNat : Int) := by omega
    rw [toRat_of_exponent_neg (not_le.1 he), Rat.floor_intCast_div_natCast]
    generalize hk : (-x.exponent).toNat = k at hexp ⊢
    have hpow : ((10 ^ k : Nat) : Rat) ≠ 0 := by positivity
    have hdiv := Int.emod_add_mul_ediv x.significand ((10 ^ k : Nat) : Int)
    have heq : (x.significand : Rat) / ((10 ^ k : Nat) : Rat) -
        ((x.significand / ((10 ^ k : Nat) : Int) : Int) : Rat) =
          ((x.significand % ((10 ^ k : Nat) : Int) : Int) : Rat) * (10 : Rat) ^ (-(k : Int)) := by
      have hcast : (x.significand : Rat) = ((x.significand % ((10 ^ k : Nat) : Int) : Int) : Rat) +
          ((10 ^ k : Nat) : Rat) * ((x.significand / ((10 ^ k : Nat) : Int) : Int) : Rat) := by
        exact_mod_cast hdiv.symm
      rw [zpow_neg, zpow_natCast]
      push_cast at hcast hpow ⊢
      field_simp
      linarith
    rw [heq]
    apply keeps_of_digitCount_le
    refine Nat.le_trans (digitCount_mono ?_) hlen
    rw [Int.natAbs_emod_of_nonneg hsig]
    exact Nat.mod_le _ _

/-! ## Rounding half away -/

/-- Twice a fraction of fifty digits that are too many when doubled: then the digits begin at the
point or behind it, and the product is on the same side of one. -/
theorem one_le_twice_iff_of_long {x : Decimal} (h1 : x.toRat < 1)
    (hlow : 10 ^ 50 ≤ 2 * x.significand) (hhigh : x.significand < 10 ^ 50)
    (hlong : max x.precision workingPrecision < digitCount (x.significand * 2).natAbs) :
    1 ≤ (x.mul (ofInt 2)).toRat ↔ 1 ≤ 2 * x.toRat := by
  have htwo : (ofInt 2).significand = 2 ∧ (ofInt 2).exponent = 0 := by decide +kernel
  have hcount : digitCount (x.significand * 2).natAbs ≤ 51 := by
    rw [digitCount_le_iff]
    omega
  have hp : max x.precision workingPrecision = 50 := by
    unfold workingPrecision at hlong ⊢
    omega
  have hlow' : (10 : Rat) ^ 50 ≤ 2 * x.significand := by exact_mod_cast hlow
  have hhigh' : (x.significand : Rat) < 10 ^ 50 := by exact_mod_cast hhigh
  have hexp : x.exponent ≤ -50 := by
    by_contra hbig
    have hpow : (10 : Rat) ^ (-49 : Int) ≤ 10 ^ x.exponent :=
      zpow_le_zpow_right₀ (by norm_num) (by omega)
    have := mul_le_mul hlow' hpow (by positivity) (by linarith)
    norm_num at this
    unfold toRat at h1
    linarith
  rcases Int.lt_or_eq_of_le hexp with hless | heq
  · have hpow : (10 : Rat) ^ x.exponent ≤ 10 ^ (-51 : Int) :=
      zpow_le_zpow_right₀ (by norm_num) (by omega)
    have hten : (0 : Rat) < 10 ^ x.exponent := by positivity
    have hsmall : x.toRat < 1 / 10 := by
      have := mul_lt_mul hhigh' hpow hten (by positivity)
      norm_num at this
      unfold toRat
      linarith
    have hnonneg : 0 ≤ x.toRat := by
      have := mul_nonneg (show (0 : Rat) ≤ x.significand by linarith) hten.le
      exact this
    have herr := abs_mul_sub_le x (ofInt 2) (p := 50) (by decide) (by rwa [ofInt_precision])
    rw [toRat_ofInt_two, abs_of_nonneg (show 0 ≤ x.toRat * 2 by linarith)] at herr
    have := (abs_le.1 herr).2
    norm_num at this
    constructor <;> intro h <;> linarith
  · rw [hp] at hlong
    obtain ⟨a, hrounded, hnear⟩ := exists_rounded_eq_ofParts x.exponent (by decide) hlong.le
    have hk : digitCount (x.significand * 2).natAbs - 50 = 1 := by omega
    rw [hk] at hrounded hnear
    have ha : 10 ^ 49 ≤ a := by omega
    have ha' : (10 : Rat) ^ 49 ≤ a := by exact_mod_cast ha
    have hmul : (x.mul (ofInt 2)).toRat = a * (10 : Rat) ^ (-49 : Int) := by
      rw [Decimal.mul, htwo.1, htwo.2, ofInt_precision, hp, add_zero, hrounded, toRat_ofParts, heq]
      norm_num
    have hone : (1 : Rat) ≤ a * (10 : Rat) ^ (-49 : Int) := by
      have := mul_le_mul_of_nonneg_right ha' (show (0 : Rat) ≤ 10 ^ (-49 : Int) by positivity)
      norm_num at this ⊢
      linarith
    have hhalf : 1 ≤ 2 * x.toRat := by
      unfold toRat
      rw [heq]
      norm_num at hlow' ⊢
      linarith
    rw [hmul]
    exact iff_of_true hone hhalf

/-- Doubling a fraction of fifty digits may drop one of them, but not the answer to whether it is
one half or more. -/
theorem one_le_twice_iff {x : Decimal} (h0 : 0 ≤ x.toRat) (h1 : x.toRat < 1)
    (hlen : x.length ≤ workingPrecision) :
    1 ≤ (x.mul (ofInt 2)).toRat ↔ 1 ≤ 2 * x.toRat := by
  have hsig : 0 ≤ x.significand := by
    have := (toRat_neg_iff x).not.1 (not_lt.2 h0)
    omega
  by_cases hlong : max x.precision workingPrecision < digitCount (x.significand * 2).natAbs
  · refine one_le_twice_iff_of_long h1 ?_ ?_ hlong
    · have hfifty : 50 < digitCount (x.significand * 2).natAbs :=
        Nat.lt_of_le_of_lt (Nat.le_max_right _ _) hlong
      rw [lt_digitCount_iff] at hfifty
      omega
    · have := (digitCount_le_iff _ _).1 hlen
      unfold workingPrecision at this
      omega
  · have hkeeps : Keeps (max x.precision workingPrecision) (x.toRat * 2) := by
      have := keeps_of_digitCount_le (not_lt.1 hlong) x.exponent
      rwa [Int.cast_mul, mul_right_comm] at this
    have hmul : (x.mul (ofInt 2)).toRat = x.toRat * (ofInt 2).toRat :=
      toRat_mul_of_keeps (by rwa [ofInt_precision, toRat_ofInt_two])
    rw [hmul, toRat_ofInt_two, mul_comm]

/-- A number with a fraction leaves room for one more before the point. -/
theorem keeps_floor_add_one {x : Decimal} (h0 : 0 ≤ x.toRat) (he : x.exponent < 0)
    (hlen : x.length ≤ workingPrecision) : Keeps workingPrecision ((⌊x.toRat⌋ : Rat) + 1) := by
  have hsig : 0 ≤ x.significand := by
    have := (toRat_neg_iff x).not.1 (not_lt.2 h0)
    omega
  obtain ⟨k, hk⟩ : ∃ k, (-x.exponent).toNat = k + 1 := ⟨(-x.exponent).toNat - 1, by omega⟩
  have hhigh := (digitCount_le_iff _ _).1 hlen
  have hdiv : x.significand / ((10 ^ (k + 1) : Nat) : Int) ≤ x.significand / 10 := by
    rw [Nat.pow_succ, Nat.cast_mul, ← Int.ediv_ediv_of_nonneg (by positivity)]
    exact Int.ediv_le_ediv (by decide) (Int.ediv_le_self _ hsig)
  have hnonneg : 0 ≤ x.significand / ((10 ^ (k + 1) : Nat) : Int) :=
    Int.ediv_nonneg hsig (by positivity)
  rw [toRat_of_exponent_neg he, Rat.floor_intCast_div_natCast, hk]
  have hone : ((x.significand / ((10 ^ (k + 1) : Nat) : Int) : Int) : Rat) + 1 =
      ((x.significand / ((10 ^ (k + 1) : Nat) : Int) + 1 : Int) : Rat) := by
    push_cast
    rfl
  rw [hone]
  apply keeps_intCast
  rw [digitCount_le_iff]
  unfold workingPrecision at hhigh ⊢
  omega

/-- Rounding a decimal half away is rounding its value. -/
theorem toRat_roundHalfAway {x : Decimal} (hlen : x.length ≤ workingPrecision)
    (hp : x.precision = 0 ∨ x.length ≤ x.precision) :
    x.roundHalfAway.toRat = halfAway x.toRat := by
  have habs := toRat_abs x
  have hnonneg : 0 ≤ x.abs.toRat := habs ▸ abs_nonneg _
  have hfloor := toRat_floor x.abs
  have hprec : max x.abs.precision x.abs.floor.precision = x.precision := by
    rw [abs_precision]
    have := floor_precision_le x.abs
    rw [abs_precision] at this
    omega
  have hsub : (x.abs.sub x.abs.floor).toRat = x.abs.toRat - ⌊x.abs.toRat⌋ := by
    rw [← hfloor]
    apply toRat_sub
    rw [hprec, hfloor]
    rcases hp with hzero | hle
    · exact Or.inl hzero
    · exact keeps_fract hnonneg (by rwa [length_abs])
  have hfract := keeps_fract hnonneg ((length_abs x).trans_le hlen)
  rw [← hsub] at hfract
  have htwice := one_le_twice_iff (x := x.abs.sub x.abs.floor)
    (by rw [hsub]; linarith [Int.floor_le x.abs.toRat])
    (by rw [hsub]; linarith [Int.lt_floor_add_one x.abs.toRat])
    ((length_le_iff_keeps _ (by decide)).2 hfract)
  rw [hsub] at htwice
  have hround := halfAway_eq_floor hnonneg
  -- the magnitude is rounded first; which way is decided by the doubled fraction
  have hnearest : (if (ofInt 1).atMost ((x.abs.sub x.abs.floor).mul (ofInt 2)) = true
      then x.abs.floor.add (ofInt 1) else x.abs.floor).toRat = halfAway |x.toRat| := by
    rw [← habs, hround]
    by_cases hup : 1 ≤ 2 * (x.abs.toRat - ⌊x.abs.toRat⌋)
    · have hatMost := (atMost_iff (ofInt 1) _).2 (toRat_ofInt_one.trans_le (htwice.2 hup))
      rw [if_pos hatMost, if_pos hup]
      have he : x.abs.exponent < 0 := by
        by_contra hwhole
        rw [toRat_of_exponent_nonneg (not_lt.1 hwhole), Int.floor_intCast, sub_self] at hup
        norm_num at hup
      have hkeeps := keeps_floor_add_one hnonneg he ((length_abs x).trans_le hlen)
      have hadd : (x.abs.floor.add (ofInt 1)).toRat = x.abs.floor.toRat + (ofInt 1).toRat := by
        apply toRat_add
        rw [hfloor, toRat_ofInt_one, ofInt_precision]
        exact hkeeps.mono (by decide) (Nat.le_max_right _ _)
      rw [hadd, hfloor, toRat_ofInt_one]
      push_cast
      rfl
    · have hatMost : ¬ (ofInt 1).atMost ((x.abs.sub x.abs.floor).mul (ofInt 2)) = true := by
        rw [atMost_iff, toRat_ofInt_one]
        exact fun h => hup (htwice.1 h)
      rw [if_neg hatMost, if_neg hup, hfloor]
  rw [halfAway_eq_ite]
  unfold roundHalfAway
  dsimp only
  by_cases hneg : x.isNegative = true
  · rw [if_pos hneg, if_pos ((isNegative_iff x).1 hneg), toRat_neg, hnearest, Int.cast_neg]
  · rw [if_neg hneg, if_neg (fun h => hneg ((isNegative_iff x).2 h)), hnearest]

/-- Rounding does not raise the precision beyond the working one. -/
theorem roundHalfAway_precision_le (x : Decimal) :
    x.roundHalfAway.precision ≤ max x.precision workingPrecision := by
  have hfloor := floor_precision_le x.abs
  rw [abs_precision] at hfloor
  have hneg : ∀ y : Decimal, y.neg.precision = y.precision := fun _ => rfl
  unfold roundHalfAway
  dsimp only
  split
  · rw [hneg]
    split
    · rw [add_precision, ofInt_precision]
      omega
    · omega
  · split
    · rw [add_precision, ofInt_precision]
      omega
    · omega

/-! ## Whole numbers as words -/

/-- A decimal has no more fraction digits than some way of writing its value. -/
theorem le_exponent_of_toRat {x : Decimal} {n e : Int} (he : e ≤ 0)
    (h : x.toRat = n * (10 : Rat) ^ e) : e ≤ x.exponent := by
  have hvalue : x.toRat = (ofParts n e 0).toRat := by rw [toRat_ofParts, h]
  rw [(eq_of_toRat_eq hvalue).2]
  unfold ofParts
  split
  · exact he
  · show e ≤ e + (trailingZeros n.natAbs : Int)
    omega

/-- A decimal with a whole value has no fraction digits. -/
theorem exponent_nonneg_of_toRat {x : Decimal} {n : Int} (h : x.toRat = n) : 0 ≤ x.exponent :=
  le_exponent_of_toRat (Int.le_refl 0) (by rw [h, zpow_zero, mul_one])

/-- A whole number becomes the word of its value, if there is one. -/
theorem toInt64?_of_toRat {x : Decimal} {n : Int} (h : x.toRat = n) : x.toInt64? = storable? n := by
  have hint := exponent_nonneg_of_toRat h
  have hvalue : x.significand * 10 ^ x.exponent.toNat = n := by
    rw [toRat_of_exponent_nonneg hint] at h
    exact Int.cast_injective h
  unfold toInt64?
  by_cases hsmall : x.exponent < 19
  · rw [if_pos ⟨decide_eq_true hint, hsmall⟩, hvalue]
  · have hne : x.significand ≠ 0 := by
      intro hzero
      have hnormal := x.normal
      rw [IsNormal, if_pos hzero] at hnormal
      omega
    have hlarge : 10 ^ 19 ≤ n.natAbs := by
      rw [← hvalue, Int.natAbs_mul, Int.natAbs_pow]
      calc 10 ^ 19 ≤ 10 ^ x.exponent.toNat := Nat.pow_le_pow_right (by decide) (by omega)
        _ ≤ x.significand.natAbs * 10 ^ x.exponent.toNat :=
          Nat.le_mul_of_pos_left _ (Int.natAbs_pos.2 hne)
    rw [if_neg fun hc => hsmall hc.2, storable?, if_neg (by omega)]

/-- A number is whole exactly if it is its own floor. -/
theorem isInteger_iff_floor (x : Decimal) : x.isInteger = true ↔ x.floor.toRat = x.toRat := by
  constructor
  · intro h
    rw [floor, if_pos (of_decide_eq_true h)]
  · intro h
    rw [toRat_floor] at h
    exact decide_eq_true (exponent_nonneg_of_toRat h.symm)

/-- The word of a number is the word of its value: only whole numbers have one, and only those that
a word can hold. -/
theorem toInt64?_eq_some_iff {x : Decimal} {w : Int64} :
    x.toInt64? = some w ↔ x.toRat = w.toInt := by
  constructor
  · intro h
    have hint : x.isInteger = true := by
      unfold toInt64? at h
      split at h
      · next hc => exact hc.1
      · cases h
    have hfloor := (isInteger_iff_floor x).1 hint
    rw [toRat_floor] at hfloor
    rw [toInt64?_of_toRat hfloor.symm, storable?_eq_some_iff] at h
    rw [h, hfloor]
  · intro h
    rw [toInt64?_of_toRat h, storable?_eq_some_iff]

end UnitLedger.Decimal
