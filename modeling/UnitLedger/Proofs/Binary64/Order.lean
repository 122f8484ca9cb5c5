import UnitLedger.Proofs.Binary64.Unique
import UnitLedger.Proofs.Decimal.Binary
set_option autoImplicit false

/-! # Rounding to doubles keeps the order of numbers

Of two numbers the larger one is not rounded to the smaller double (`IsRounding.toRat_mono`).  The
decimal that is written for a double is rounded to it again, so written decimals have the order of
their doubles (`writtenValue_mono`), and their signs (`writtenValue_neg`).  What a number is rounded
to is the double nearest to it, the even one of two that are equally near (`IsRounding.isNearest`).
-/

namespace UnitLedger.Binary64

/-- What is as near to the larger one of two numbers lies in the middle between them or above. -/
theorem add_le_two_mul_of_nearer {r a b : Rat} (hab : b < a) (h : |r - a| ≤ |r - b|) :
    a + b ≤ 2 * r := by
  rcases abs_cases (r - a) with ⟨ha, _⟩ | ⟨ha, _⟩ <;>
    rcases abs_cases (r - b) with ⟨hb, _⟩ | ⟨hb, _⟩ <;> rw [ha, hb] at h <;> linarith

namespace Finite

variable {x y : Finite} {a b r : Rat}

/-! ## Magnitudes -/

/-- Rounding keeps the order of magnitudes. -/
theorem Rounds.magnitude_mono (hx : x.Rounds a) (hy : y.Rounds b) (ha : 0 ≤ a) (hab : a ≤ b) :
    x.magnitude ≤ y.magnitude := by
  by_contra hlt
  have hgt : y.magnitude < x.magnitude := not_le.1 hlt
  have habove := add_le_two_mul_of_nearer hgt (hx.abs_sub_le_abs_sub ha y)
  have hbelow := add_le_two_mul_of_nearer (r := -b) (neg_lt_neg hgt) (by
    rw [neg_sub_neg, neg_sub_neg, abs_sub_comm, abs_sub_comm x.magnitude]
    exact hy.abs_sub_le_abs_sub (ha.trans hab) x)
  -- both numbers are in the middle between the doubles, so they are one number
  obtain rfl : a = b := by linarith
  obtain ⟨hexp, hsig⟩ := hx.unique_magnitude hy
  rw [magnitude, magnitude, hexp, hsig] at hgt
  exact lt_irrefl _ hgt

/-- An odd double is nearer to what is rounded to it than any other magnitude is. -/
theorem Rounds.abs_sub_lt_abs_sub (h : x.Rounds r) (hodd : x.significand % 2 = 1)
    (hne : y.magnitude ≠ x.magnitude) : |r - x.magnitude| < |r - y.magnitude| := by
  have hunit : (0 : Rat) < 2 ^ x.exponent := by positivity
  have hhigh := h.le_upper.2 hodd
  have hlow := (h.lower_le (by omega)).2.1 hodd
  rw [add_mul, ← magnitude_eq] at hhigh
  rw [sub_mul, ← magnitude_eq] at hlow
  have hnear : |r - x.magnitude| < 2 ^ x.exponent / 2 := abs_lt.2 ⟨by linarith, by linarith⟩
  refine hnear.trans_le ?_
  rcases lt_or_gt_of_ne hne with hbelow | habove
  · rcases magnitude_add_unit_le_of_lt hbelow with hgap | ⟨hpow, -⟩
    · refine le_trans ?_ (le_abs_self _)
      linarith
    · omega
  · have hgap := magnitude_add_unit_le habove
    rw [abs_sub_comm]
    refine le_trans ?_ (le_abs_self _)
    linarith

/-! ## Numbers with a sign -/

/-- The number `r` is rounded to `x`, which has the sign of `r` unless it is zero. -/
structure IsRounding (x : Finite) (r : Rat) : Prop where
  rounds : x.Rounds |r|
  sign : x.significand ≠ 0 → (x.negative = true ↔ r < 0)

namespace IsRounding

theorem toRat_eq (h : x.IsRounding r) : x.toRat = if r < 0 then -x.magnitude else x.magnitude := by
  by_cases hzero : x.significand = 0
  · rw [x.toRat_eq, magnitude, hzero, Nat.cast_zero, zero_mul, mul_zero, neg_zero, ite_self]
  · rw [x.toRat_eq]
    simp only [h.sign hzero]
    split
    · rw [neg_one_mul]
    · rw [one_mul]

/-- The double is as far from the number as the magnitudes are from each other. -/
theorem abs_sub_toRat (h : x.IsRounding r) : |r - x.toRat| = abs (|r| - x.magnitude) := by
  rw [h.toRat_eq]
  split
  · next hneg => rw [abs_of_neg hneg, sub_neg_eq_add, ← abs_neg, neg_add, sub_eq_add_neg]
  · next hpos => rw [abs_of_nonneg (not_lt.1 hpos)]

/-- Rounding keeps the order of numbers. -/
theorem toRat_mono (hx : x.IsRounding a) (hy : y.IsRounding b) (hab : a ≤ b) :
    x.toRat ≤ y.toRat := by
  have hxsize := x.magnitude_nonneg
  have hysize := y.magnitude_nonneg
  rw [hx.toRat_eq, hy.toRat_eq]
  split
  · next ha =>
    split
    · next hb =>
      have hsizes : |b| ≤ |a| := by
        rw [abs_of_neg ha, abs_of_neg hb]
        exact neg_le_neg hab
      exact neg_le_neg (hy.rounds.magnitude_mono hx.rounds (abs_nonneg b) hsizes)
    · linarith
  · next ha =>
    have hb := (not_lt.1 ha).trans hab
    rw [if_neg (not_lt.2 hb)]
    refine hx.rounds.magnitude_mono hy.rounds (abs_nonneg a) ?_
    rwa [abs_of_nonneg (not_lt.1 ha), abs_of_nonneg hb]

/-- Of the doubles that a number is rounded to, one is not zero and the others are. -/
theorem unique (hx : x.IsRounding r) (hy : y.IsRounding r) (hne : x.significand ≠ 0) : x = y := by
  have hsig := (hx.rounds.unique_magnitude hy.rounds).2
  have hsign := (hx.sign hne).trans (hy.sign (hsig ▸ hne)).symm
  exact hx.rounds.unique hy.rounds (Bool.eq_iff_iff.2 hsign)

end IsRounding

/-! ## Written decimals -/

theorem Rounds.isRounding (h : x.Rounds r) (hr : 0 ≤ r) :
    x.IsRounding ((if x.negative then -1 else 1) * r) := by
  refine ⟨by rwa [abs_signed _ hr], fun hne => ?_⟩
  have hpos := pos_of_contains hne (h.contains hne)
  cases x.negative
  · rw [if_neg Bool.false_ne_true, one_mul]
    exact iff_of_false Bool.false_ne_true hr.not_gt
  · rw [if_pos rfl, neg_one_mul]
    exact iff_of_true rfl (neg_neg_of_pos hpos)

/-- A double is rounded to itself. -/
theorem isRounding_toRat (x : Finite) : x.IsRounding x.toRat := by
  rw [x.toRat_eq]
  refine Rounds.isRounding ?_ x.magnitude_nonneg
  rw [Rounds]
  split
  · next hzero =>
    rw [magnitude, hzero, Nat.cast_zero, zero_mul]
    positivity
  · next hne => exact contains_magnitude hne

/-- The decimal that is written for a double is rounded to it. -/
theorem isRounding_writtenValue (x : Finite) : x.IsRounding x.writtenValue := by
  have h := x.rounds_writtenValue
  rw [abs_writtenValue] at h
  rw [writtenValue_eq]
  refine h.isRounding ?_
  unfold writtenMagnitude
  positivity

/-- Written decimals have the order of their doubles. -/
theorem writtenValue_mono (h : x.toRat ≤ y.toRat) : x.writtenValue ≤ y.writtenValue := by
  by_contra hlt
  have hback := y.isRounding_writtenValue.toRat_mono x.isRounding_writtenValue (not_le.1 hlt).le
  -- the doubles are one number, which is one double but for the sign of zero
  have hx : x.IsRounding y.toRat := le_antisymm h hback ▸ x.isRounding_toRat
  by_cases hzero : x.significand = 0
  · have hsig := (hx.rounds.unique_magnitude y.isRounding_toRat.rounds).2
    exact hlt (by rw [writtenValue_of_zero hzero, writtenValue_of_zero (hsig.symm.trans hzero)])
  · exact hlt (hx.unique y.isRounding_toRat hzero ▸ le_rfl)

/-- The decimal that is written with the other sign. -/
theorem writtenValue_neg (x : Finite) : x.neg.writtenValue = -x.writtenValue := by
  have hwritten : x.neg.writtenMagnitude = x.writtenMagnitude := rfl
  rw [writtenValue_eq, writtenValue_eq, hwritten]
  cases hx : x.negative <;> simp [Finite.neg, hx]

/-! ## The nearest double -/

/-- The double `x` is nearest to `r`; where another is as near, the significand of `x` is even. -/
structure IsNearest (x : Finite) (r : Rat) : Prop where
  nearest : ∀ y : Finite, |r - x.toRat| ≤ |r - y.toRat|
  even : ∀ y : Finite, |r - y.toRat| = |r - x.toRat| → y.toRat = x.toRat ∨ x.significand % 2 = 0

/-- A double is not nearer to a number than their magnitudes are to each other. -/
theorem abs_sub_magnitude_le_abs_sub (y : Finite) (r : Rat) :
    abs (|r| - y.magnitude) ≤ |r - y.toRat| :=
  y.abs_toRat ▸ abs_abs_sub_abs_le r y.toRat

/-- A number is rounded to the double nearest to it. -/
theorem IsRounding.isNearest (h : x.IsRounding r) : x.IsNearest r := by
  refine ⟨fun y => ?_, fun y hy => ?_⟩
  · rw [h.abs_sub_toRat]
    exact (h.rounds.abs_sub_le_abs_sub (abs_nonneg r) y).trans (y.abs_sub_magnitude_le_abs_sub r)
  · by_contra hneither
    obtain ⟨hne, hodd⟩ := not_or.1 hneither
    by_cases hmag : |y.toRat| = |x.toRat|
    · -- doubles of both signs are as near to zero only, which is not rounded to an odd one
      have hopposite := (abs_eq_abs.1 hmag).resolve_left hne
      have hzero : r = 0 := by
        rcases abs_eq_abs.1 hy with hsame | hmiddle
        · exact absurd (sub_right_injective hsame) hne
        · linarith
      have hpos := pos_of_contains (by omega) (h.rounds.contains (by omega))
      rw [hzero, abs_zero] at hpos
      exact lt_irrefl _ hpos
    · rw [h.abs_sub_toRat] at hy
      rw [abs_toRat, abs_toRat] at hmag
      have hlt := h.rounds.abs_sub_lt_abs_sub (by omega) hmag
      exact (hlt.trans_le (y.abs_sub_magnitude_le_abs_sub r)).ne' hy

end Finite

/-- A finite double that a number is rounded to is the one nearest to it. -/
theorem RoundsTo.isNearest {negative : Bool} {r : Rat} {x : Finite}
    (h : RoundsTo negative r (.finite x)) (hr : 0 ≤ r) :
    x.IsNearest ((if negative then -1 else 1) * r) := by
  obtain ⟨y, hy, rfl, hround⟩ := h.exists_finite (h.isFinite_iff.1 rfl)
  obtain rfl := Binary64.finite.inj hy
  exact (hround.isRounding hr).isNearest

/-! ## The largest double -/

def largest : Finite := ⟨false, 2 ^ 53 - 1, maxExponent, by decide⟩

theorem toRat_largest : largest.toRat = (2 ^ 53 - 1) * 2 ^ maxExponent := by
  rw [largest.toRat_eq, Finite.magnitude, largest]
  norm_num

theorem abs_toRat_le_largest (x : Finite) : |x.toRat| ≤ largest.toRat := by
  obtain ⟨hbits, -, hexp, -⟩ := x.canonical
  have hcast : (x.significand : Rat) + 1 ≤ 2 ^ 53 := by exact_mod_cast hbits
  rw [x.abs_toRat, x.magnitude_eq, toRat_largest]
  exact mul_le_mul (by linarith) (two_zpow_le hexp) (by positivity) (by norm_num)

/-- The threshold lies half way between the largest double and the next power of two. -/
theorem overflowThreshold_eq :
    overflowThreshold = (largest.toRat + 2 ^ (maxExponent + 53)) / 2 := by
  have hnext : (2 : Rat) ^ (maxExponent + 53) = 2 ^ 53 * 2 ^ maxExponent := by
    rw [zpow_add₀ (by norm_num), mul_comm]
    norm_cast
  rw [hnext, toRat_largest, two_zpow_eq maxExponent, overflowThreshold]
  ring

end UnitLedger.Binary64
