import UnitLedger.Proofs.Decimal.Precision
set_option autoImplicit false

/-! # Sums and order of decimals

A sum is exact when its precision keeps it.  Of the five ways to place the smaller operand only
those two are then taken that put no digits aside, because a sum of numbers with different last
places does not end in a zero.  Comparison, which looks at signs and magnitudes before it aligns
anything, is the order of the values.
-/

namespace UnitLedger.Decimal

open Numeral

/-! ## Sums -/

/-- Where nothing was put aside there is nothing to fit or to round. -/
theorem settle_fit_of_even {head e : Int} {width p : Nat} (h : digitCount head.natAbs ≤ width) :
    (((⟨head, e, 0, 0⟩ : Pending).fit width).settle p).toRat = head * (10 : Rat) ^ e := by
  have hfit : (⟨head, e, 0, 0⟩ : Pending).fit width = ⟨head, e, 0, 0⟩ := by
    have hnot : ¬ width < digitCount head.natAbs := by omega
    simp [Pending.fit, hnot]
  rw [hfit]
  simp [Pending.settle]

/-- Operands of one sign: their digits do not cancel, so all of the larger one are in the sum. -/
theorem overlay_of_sign_eq {l s : Int} {d p : Nat} (e : Int) (width : Nat) (hl : l ≠ 0)
    (hsign : l.sign = s.sign) (hd : 0 < d) (hwidth : p ≤ width)
    (hfew : (l * 10 ^ d + s).natAbs < 10 ^ p) :
    overlay l s d e p width = ⟨l * 10 ^ d + s, e, 0, 0⟩ := by
  have hdigits : digitCount l.natAbs + d ≤ p := by
    rw [← digitCount_mul_pow (Int.natAbs_ne_zero.2 hl), digitCount_le_iff]
    have hmul : (l * 10 ^ d).natAbs = l.natAbs * 10 ^ d := by
      rw [Int.natAbs_mul, Int.natAbs_pow]
      rfl
    have hlsign : (l * 10 ^ d).sign = l.sign := by
      rw [Int.sign_mul, Int.sign_eq_one_of_pos (show (0 : Int) < 10 ^ d by positivity), mul_one]
    rw [← hmul]
    refine Nat.lt_of_le_of_lt ?_ hfew
    rw [hsign] at hlsign
    rcases Int.sign_trichotomy s with hs | hs | hs
    · have h1 := Int.pos_of_sign_eq_one hs
      have h2 := Int.pos_of_sign_eq_one (hlsign.trans hs)
      omega
    · rw [hs] at hsign
      exact absurd (Int.sign_eq_zero_iff_zero.1 hsign) hl
    · have h1 := Int.neg_of_sign_eq_neg_one hs
      have h2 := Int.neg_of_sign_eq_neg_one (hlsign.trans hs)
      omega
  have h1 : ¬ (l.sign ≠ s.sign ∧ digitCount l.natAbs + d ≤ digitCount s.natAbs + p) :=
    fun h => h.1 hsign
  have h2 : ¬ (digitCount s.natAbs + 1 < d ∧
      digitCount s.natAbs + 1 + width < digitCount l.natAbs + d) := by omega
  have h3 : ¬ p ≤ digitCount l.natAbs := by omega
  have h4 : ¬ p < d + digitCount l.natAbs := by omega
  simp only [overlay, h1, h2, h3, h4, if_false]

/-- Operands of opposite signs: a larger operand beyond the reach of the smaller one would leave too
many digits. -/
theorem overlay_of_sign_ne {l s : Int} {d p : Nat} (e : Int) (width : Nat) (hl : l ≠ 0)
    (hs : s ≠ 0) (hsign : l.sign ≠ s.sign) (hp : p ≠ 0)
    (hfew : (l * 10 ^ d + s).natAbs < 10 ^ p) :
    overlay l s d e p width = ⟨l * 10 ^ d + s, e, 0, 0⟩ := by
  have hreach : digitCount l.natAbs + d ≤ digitCount s.natAbs + p := by
    by_contra hfar
    have hlarge : 10 ^ (digitCount s.natAbs + p) ≤ (l * 10 ^ d).natAbs := by
      rw [← lt_digitCount_iff, Int.natAbs_mul, Int.natAbs_pow]
      rw [show (10 : Int).natAbs = 10 from rfl, digitCount_mul_pow (Int.natAbs_ne_zero.2 hl)]
      omega
    have hsmall := lt_pow_digitCount s.natAbs
    have hpos := (digitCount_pos_iff s.natAbs).2 (Int.natAbs_ne_zero.2 hs)
    have hten : 10 ≤ 10 ^ digitCount s.natAbs := by
      calc 10 = 10 ^ 1 := rfl
        _ ≤ 10 ^ digitCount s.natAbs := Nat.pow_le_pow_right (by decide) hpos
    have htenp : 10 ≤ 10 ^ p := by
      calc 10 = 10 ^ 1 := rfl
        _ ≤ 10 ^ p := Nat.pow_le_pow_right (by decide) (by omega)
    have hprod : 10 ^ digitCount s.natAbs + 10 ^ p ≤ 10 ^ digitCount s.natAbs * 10 ^ p := by
      nlinarith
    rw [Nat.pow_add] at hlarge
    omega
  simp only [overlay, hsign, hreach, ne_eq, not_false_eq_true, true_and, if_true]

theorem toRat_sumApart {l s e : Int} {d p : Nat} (hl : l ≠ 0) (hs : s.natAbs % 10 ≠ 0)
    (hd : 0 < d) (h : Keeps p (((l * 10 ^ d + s : Int) : Rat) * (10 : Rat) ^ e)) :
    (sumApart l s d e p).toRat = ((l * 10 ^ d + s : Int) : Rat) * (10 : Rat) ^ e := by
  by_cases hp : p = 0
  · simp [sumApart, hp]
  · -- the last digit of the sum is that of the operand with more places: it ends in no zero
    have hfew : (l * 10 ^ d + s).natAbs < 10 ^ p := by
      obtain ⟨a, t, ha, hdigits⟩ := exists_eq_mul_pow_of_keeps hp h
      cases t with
      | zero =>
        rw [ha, pow_zero, mul_one]
        exact (digitCount_le_iff _ _).1 hdigits
      | succ t =>
        obtain ⟨j, rfl⟩ : ∃ j, d = j + 1 := ⟨d - 1, by omega⟩
        rw [pow_succ, pow_succ, ← mul_assoc, ← mul_assoc] at ha
        omega
    have hne : s ≠ 0 := by
      rintro rfl
      exact hs rfl
    have hcount := (digitCount_le_iff _ _).2 hfew
    simp only [sumApart, hp, if_false]
    by_cases hsign : l.sign = s.sign
    · simp only [hsign, ne_eq, not_true_eq_false, if_false]
      rw [overlay_of_sign_eq e p hl hsign hd (Nat.le_refl p) hfew]
      exact settle_fit_of_even hcount
    · simp only [ne_eq, hsign, not_false_eq_true, if_true]
      rw [overlay_of_sign_ne e (p + 1) hl hne hsign hp hfew]
      exact settle_fit_of_even (Nat.le_succ_of_le hcount)

/-- The sum of two numbers in normal form is exact when the precision keeps it. -/
theorem toRat_sum {s₁ e₁ s₂ e₂ : Int} {p : Nat} (h₁ : IsNormal s₁ e₁) (h₂ : IsNormal s₂ e₂)
    (h : Keeps p (s₁ * (10 : Rat) ^ e₁ + s₂ * (10 : Rat) ^ e₂)) :
    (sum s₁ e₁ s₂ e₂ p).toRat = s₁ * (10 : Rat) ^ e₁ + s₂ * (10 : Rat) ^ e₂ := by
  have hlast : ∀ {s e : Int}, IsNormal s e → s ≠ 0 → s.natAbs % 10 ≠ 0 := by
    intro s e hn hne
    simpa [IsNormal, hne] using hn
  unfold sum
  split
  · next hz => simp [hz]
  split
  · next hz => simp [hz]
  next hne₁ hne₂ =>
  split
  · next heq =>
    subst heq
    have hadd : s₁ * (10 : Rat) ^ e₁ + s₂ * (10 : Rat) ^ e₁ =
        ((s₁ + s₂ : Int) : Rat) * 10 ^ e₁ := by
      push_cast
      ring
    rw [hadd] at h ⊢
    exact toRat_rounded_of_keeps h
  split
  · next hlt =>
    rw [mul_zpow_of_le s₁ hlt.le, ← add_mul, ← Int.cast_add] at h ⊢
    exact toRat_sumApart hne₁ (hlast h₂ hne₂) (by omega) h
  · next hge =>
    have hle : e₁ ≤ e₂ := by omega
    rw [mul_zpow_of_le s₂ hle, add_comm, ← add_mul, ← Int.cast_add] at h ⊢
    exact toRat_sumApart hne₂ (hlast h₁ hne₁) (by omega) h

theorem toRat_add {x y : Decimal}
    (h : Keeps (max x.precision y.precision) (x.toRat + y.toRat)) :
    (x.add y).toRat = x.toRat + y.toRat :=
  toRat_sum x.normal y.normal h

theorem toRat_sub {x y : Decimal}
    (h : Keeps (max x.precision y.precision) (x.toRat - y.toRat)) :
    (x.sub y).toRat = x.toRat - y.toRat := by
  have hneg : x.toRat - y.toRat =
      x.significand * (10 : Rat) ^ x.exponent +
        ((-y.significand : Int) : Rat) * (10 : Rat) ^ y.exponent := by
    rw [toRat, toRat, Int.cast_neg]
    ring
  rw [hneg] at h ⊢
  exact toRat_sum x.normal (isNormal_neg y.normal) h

@[simp] theorem sumApart_precision (l s : Int) (d : Nat) (e : Int) (p : Nat) :
    (sumApart l s d e p).precision = p := by
  unfold sumApart
  split
  · exact ofParts_precision _ _ p
  · exact ofParts_precision _ _ p

@[simp] theorem sum_precision (s₁ e₁ s₂ e₂ : Int) (p : Nat) :
    (sum s₁ e₁ s₂ e₂ p).precision = p := by
  unfold sum
  split
  · exact ofParts_precision _ _ p
  split
  · exact ofParts_precision _ _ p
  split
  · exact rounded_precision _ _ p
  split
  · exact sumApart_precision _ _ _ _ p
  · exact sumApart_precision _ _ _ _ p

@[simp] theorem add_precision (x y : Decimal) :
    (x.add y).precision = max x.precision y.precision := sum_precision _ _ _ _ _

/-! ## Signs and magnitudes -/

theorem toRat_neg_iff (x : Decimal) : x.toRat < 0 ↔ x.significand < 0 := by
  have hten : (0 : Rat) < 10 ^ x.exponent := by positivity
  rw [toRat, mul_neg_iff]
  constructor
  · rintro (⟨_, hneg⟩ | ⟨hneg, _⟩)
    · exact absurd hneg hten.not_gt
    · exact_mod_cast hneg
  · intro h
    exact Or.inr ⟨by exact_mod_cast h, hten⟩

theorem isNegative_iff (x : Decimal) : x.isNegative = true ↔ x.toRat < 0 := by
  rw [toRat_neg_iff]
  exact decide_eq_true_iff

theorem toRat_pos_iff (x : Decimal) : 0 < x.toRat ↔ 0 < x.significand := by
  have hneg := toRat_neg_iff x
  have hzero := toRat_eq_zero_iff x
  constructor
  · intro h
    have h1 : ¬ x.significand < 0 := fun hc => h.not_gt (hneg.2 hc)
    have h2 : ¬ x.significand = 0 := fun hc => h.ne' (hzero.2 hc)
    omega
  · intro h
    have h1 : ¬ x.toRat < 0 := fun hc => by have := hneg.1 hc; omega
    have h2 : ¬ x.toRat = 0 := fun hc => by have := hzero.1 hc; omega
    exact lt_of_le_of_ne (not_lt.1 h1) (Ne.symm h2)

theorem abs_toRat (x : Decimal) :
    |x.toRat| = (x.significand.natAbs : Rat) * (10 : Rat) ^ x.exponent := by
  rw [toRat, abs_mul, abs_of_pos (show (0 : Rat) < 10 ^ x.exponent by positivity),
    Nat.cast_natAbs, Int.cast_abs]

/-- The magnitude of a number lies just below the power of ten at its top. -/
theorem abs_toRat_lt_pow_top (x : Decimal) : |x.toRat| < (10 : Rat) ^ x.top := by
  have hlt : (x.significand.natAbs : Rat) < 10 ^ x.length := by
    exact_mod_cast lt_pow_digitCount x.significand.natAbs
  rw [abs_toRat, top, Rat.zpow_add (by decide), Rat.zpow_natCast, mul_comm]
  exact mul_lt_mul_of_pos_left hlt (by positivity)

theorem pow_top_le_abs_toRat {x : Decimal} (h : x.significand ≠ 0) :
    (10 : Rat) ^ (x.top - 1) ≤ |x.toRat| := by
  have hne := Int.natAbs_ne_zero.2 h
  have hpos := (digitCount_pos_iff _).2 hne
  have hle : (10 : Rat) ^ (x.length - 1) ≤ (x.significand.natAbs : Rat) := by
    exact_mod_cast pow_le_of_ne_zero hne
  have htop : x.top - 1 = x.exponent + ((x.length - 1 : Nat) : Int) := by
    unfold top length
    omega
  rw [abs_toRat, htop, Rat.zpow_add (by decide), Rat.zpow_natCast, mul_comm]
  exact mul_le_mul_of_nonneg_right hle (by positivity)

/-- A number whose top is lower is smaller in magnitude. -/
theorem abs_lt_abs_of_top_lt {x y : Decimal} (hy : y.significand ≠ 0) (h : x.top < y.top) :
    |x.toRat| < |y.toRat| := by
  calc |x.toRat| < (10 : Rat) ^ x.top := abs_toRat_lt_pow_top x
    _ ≤ (10 : Rat) ^ (y.top - 1) := zpow_le_zpow_right₀ (by norm_num) (by omega)
    _ ≤ |y.toRat| := pow_top_le_abs_toRat hy

/-! ## Order -/

theorem toRat_eq_aligned (x y : Decimal) :
    x.toRat = ((x.aligned y).1 : Rat) * (10 : Rat) ^ min x.exponent y.exponent ∧
      y.toRat = ((x.aligned y).2 : Rat) * (10 : Rat) ^ min x.exponent y.exponent :=
  ⟨mul_zpow_of_le _ (Int.min_le_left _ _), mul_zpow_of_le _ (Int.min_le_right _ _)⟩

/-- What a comparison says about two values. -/
def Tells (x y : Rat) : Ordering → Prop
  | .lt => x < y
  | .eq => x = y
  | .gt => y < x

theorem tells_compare_int (a b : Int) {unit : Rat} (h : 0 < unit) :
    Tells (a * unit) (b * unit) (compare a b) := by
  rcases lt_trichotomy a b with hlt | heq | hgt
  · rw [compare_lt_iff_lt.2 hlt]
    exact mul_lt_mul_of_pos_right (Int.cast_lt.2 hlt) h
  · rw [compare_eq_iff_eq.2 heq, heq]
    exact rfl
  · rw [compare_gt_iff_gt.2 hgt]
    exact mul_lt_mul_of_pos_right (Int.cast_lt.2 hgt) h

theorem lt_of_sign_lt {x y : Decimal} (h : x.significand.sign < y.significand.sign) :
    x.toRat < y.toRat := by
  rcases Int.sign_trichotomy x.significand with hx | hx | hx
  · rcases Int.sign_trichotomy y.significand with hy | hy | hy <;> omega
  · rw [(toRat_eq_zero_iff x).2 (Int.sign_eq_zero_iff_zero.1 hx), toRat_pos_iff]
    apply Int.sign_eq_one_iff_pos.1
    rcases Int.sign_trichotomy y.significand with hy | hy | hy <;> omega
  · have hneg := (toRat_neg_iff x).2 (Int.neg_of_sign_eq_neg_one hx)
    have hnot : ¬ y.toRat < 0 := by
      rw [toRat_neg_iff]
      intro hy
      rw [hx, Int.sign_eq_neg_one_of_neg hy] at h
      exact h.ne rfl
    exact hneg.trans_le (not_lt.1 hnot)

theorem top_eq_zero {x : Decimal} (h : x.significand = 0) : x.top = 0 := by
  have hnormal := x.normal
  rw [IsNormal, if_pos h] at hnormal
  simp [top, length, h, hnormal]

/-- Of two numbers of one sign, that with the higher top is farther from zero. -/
theorem lt_or_lt_of_top_lt {x y : Decimal} (hsign : x.significand.sign = y.significand.sign)
    (h : x.top < y.top) :
    x.isNegative = true ∧ y.isNegative = true ∧ y.toRat < x.toRat ∨
      x.isNegative = false ∧ y.isNegative = false ∧ x.toRat < y.toRat := by
  have hy : y.significand ≠ 0 := by
    intro hzero
    have hx : x.significand = 0 := by
      rw [hzero, Int.sign_zero] at hsign
      exact Int.sign_eq_zero_iff_zero.1 hsign
    rw [top_eq_zero hx, top_eq_zero hzero] at h
    exact h.ne rfl
  have habs := abs_lt_abs_of_top_lt hy h
  rcases lt_or_gt_of_ne hy with hneg | hpos
  · have hx := Int.neg_of_sign_eq_neg_one (hsign.trans (Int.sign_eq_neg_one_of_neg hneg))
    rw [← toRat_neg_iff] at hx hneg
    rw [abs_of_neg hx, abs_of_neg hneg] at habs
    exact Or.inl ⟨(isNegative_iff x).2 hx, (isNegative_iff y).2 hneg, neg_lt_neg_iff.1 habs⟩
  · have hx := Int.pos_of_sign_eq_one (hsign.trans (Int.sign_eq_one_of_pos hpos))
    rw [← toRat_pos_iff] at hx hpos
    rw [abs_of_pos hx, abs_of_pos hpos] at habs
    refine Or.inr ⟨?_, ?_, habs⟩
    · exact Bool.eq_false_iff.2 fun hc => hx.not_gt ((isNegative_iff x).1 hc)
    · exact Bool.eq_false_iff.2 fun hc => hpos.not_gt ((isNegative_iff y).1 hc)

/-- Comparison is the order of the values. -/
theorem tells_compare (x y : Decimal) : Tells x.toRat y.toRat (x.compare y) := by
  unfold Decimal.compare
  rcases lt_trichotomy x.significand.sign y.significand.sign with hlt | hsign | hgt
  · rw [compare_lt_iff_lt.2 hlt]
    exact lt_of_sign_lt hlt
  · rw [compare_eq_iff_eq.2 hsign]
    rcases lt_trichotomy x.top y.top with hlt | htop | hgt
    · rw [compare_lt_iff_lt.2 hlt]
      rcases lt_or_lt_of_top_lt hsign hlt with ⟨hx, -, hless⟩ | ⟨hx, -, hless⟩
      · simp only [hx, if_true]
        exact hless
      · simp only [hx, Bool.false_eq_true, if_false]
        exact hless
    · rw [compare_eq_iff_eq.2 htop]
      obtain ⟨hx, hy⟩ := toRat_eq_aligned x y
      rw [hx, hy]
      exact tells_compare_int _ _ (by positivity)
    · rw [compare_gt_iff_gt.2 hgt]
      rcases lt_or_lt_of_top_lt hsign.symm hgt with ⟨-, hx, hless⟩ | ⟨-, hx, hless⟩
      · simp only [hx, if_true]
        exact hless
      · simp only [hx, Bool.false_eq_true, if_false]
        exact hless
  · rw [compare_gt_iff_gt.2 hgt]
    exact lt_of_sign_lt hgt

theorem atMost_iff (x y : Decimal) : x.atMost y = true ↔ x.toRat ≤ y.toRat := by
  have h := tells_compare x y
  unfold atMost
  cases hc : x.compare y with
  | lt =>
    rw [hc] at h
    exact iff_of_true rfl h.le
  | eq =>
    rw [hc] at h
    exact iff_of_true rfl h.le
  | gt =>
    rw [hc] at h
    exact iff_of_false (by decide) (not_le.2 h)

/-- Equality is equality of the values. -/
theorem same_iff (x y : Decimal) : x.same y = true ↔ x.toRat = y.toRat := by
  have h := tells_compare x y
  unfold same
  cases hc : x.compare y with
  | lt =>
    rw [hc] at h
    exact iff_of_false (by decide) h.ne
  | eq =>
    rw [hc] at h
    exact iff_of_true rfl h
  | gt =>
    rw [hc] at h
    exact iff_of_false (by decide) h.ne'

end UnitLedger.Decimal
