import UnitLedger.Exact
import Mathlib.Algebra.Order.Field.Power
import Mathlib.Data.Int.Log
import Mathlib.Data.Rat.Floor
import Mathlib.Tactic.FieldSimp
import Mathlib.Tactic.Linarith
import Mathlib.Tactic.NormNum
import Mathlib.Tactic.Positivity
import Mathlib.Tactic.Ring
set_option autoImplicit false

/-! # Rounding rational numbers

Rounding to the nearest integer, seen from the whole part and the fraction of a number
(`halfAway_eq_floor`) and from the integer that comes out (`halfAway_eq_of_abs_sub_lt`).  A number
that falls short of a tie is rounded the other way (`halfAway_below_tie`); elsewhere it may be short
by less than the step of a grid without being rounded otherwise (`halfAway_below_of_grid`).
Rounding to places is the same in units of the last place (`toPlaces_eq_mul_zpow`).  An integer
towards zero is the whole part of the magnitude (`natAbs_towardZero`).
-/

namespace UnitLedger.Exact

/-! ## Sizes and signs -/

theorem abs_intCast (n : Int) : |(n : Rat)| = n.natAbs := by
  rw [Nat.cast_natAbs, Int.cast_abs]

theorem sign_eq_one_or {n : Int} (h : n ≠ 0) : n.sign = 1 ∨ n.sign = -1 := by
  rcases Int.lt_or_gt_of_ne h with h | h
  · exact Or.inr (Int.sign_eq_neg_one_of_neg h)
  · exact Or.inl (Int.sign_eq_one_of_pos h)

/-- A distance to a quotient, taken back to the dividend. -/
theorem abs_mul_sub_le_of_div {a b f e : Rat} (hf : 0 < f) (h : |a - b / f| ≤ |b / f| * e) :
    |a * f - b| ≤ |b| * e := by
  have hmul := mul_le_mul_of_nonneg_right h hf.le
  rwa [← abs_of_pos hf, ← abs_mul, mul_right_comm, ← abs_mul, abs_of_pos hf, sub_mul,
    div_mul_cancel₀ _ hf.ne'] at hmul

/-! ## Relative errors -/

/-- `a` differs from `b` by the part `e` of it at most. -/
def Near (e a b : Rat) : Prop := |a - b| ≤ |b| * e

theorem near_self {e : Rat} (he : 0 ≤ e) (a : Rat) : Near e a a := by
  rw [Near, sub_self, abs_zero]
  positivity

namespace Near

variable {e e' a b c : Rat}

theorem mono (h : Near e a b) (he : e ≤ e') : Near e' a b :=
  h.trans (mul_le_mul_of_nonneg_left he (abs_nonneg b))

/-- Two errors in turn add up, and so does their product. -/
theorem trans (hab : Near e a b) (hbc : Near e' b c) (he : 0 ≤ e) :
    Near (e + e' + e' * e) a c := by
  have htriangle := abs_sub_le a b c
  have hsize := abs_sub_abs_le_abs_sub b c
  have hmul := mul_le_mul_of_nonneg_right (show |b| ≤ |c| + |c| * e' by
    unfold Near at hbc
    linarith) he
  unfold Near at *
  linarith

/-- Two numbers near a third one are near each other. -/
theorem abs_sub_le_of_near (ha : Near e a c) (hb : Near e' b c) : |a - b| ≤ |c| * (e + e') := by
  have htriangle := abs_sub_le a c b
  rw [abs_sub_comm c] at htriangle
  unfold Near at *
  linarith

theorem mul_right (h : Near e a b) (n : Rat) : Near e (a * n) (b * n) := by
  rw [Near, ← sub_mul, abs_mul, abs_mul, mul_right_comm]
  exact mul_le_mul_of_nonneg_right h (abs_nonneg n)

/-- The error as a part of the other number. -/
theorem symm (h : Near e a b) (he : 0 ≤ e) (hhalf : e ≤ 1 / 2) : Near (2 * e) b a := by
  have hsize := abs_sub_abs_le_abs_sub b a
  have hmost := mul_le_mul_of_nonneg_left hhalf (abs_nonneg b)
  unfold Near at *
  rw [abs_sub_comm] at h
  have hmul := mul_le_mul_of_nonneg_right (show |b| ≤ 2 * |a| by linarith) he
  linarith

/-- An error of the divisor, seen from the quotient by it. -/
theorem div (h : Near e a b) (ha : a ≠ 0) (hb : b ≠ 0) (n : Rat) : Near e (n / b) (n / a) := by
  have hsplit : n / b - n / a = n / a * ((a - b) / b) := by
    field_simp
  rw [Near, hsplit, abs_mul]
  refine mul_le_mul_of_nonneg_left ?_ (abs_nonneg _)
  rw [abs_div, div_le_iff₀ (abs_pos.2 hb), mul_comm]
  exact h

end Near

/-! ## The nearest integer -/

theorem halfAway_of_nonneg {x : Rat} (h : 0 ≤ x) : halfAway x = ⌊x + 1 / 2⌋ := by
  rw [halfAway, if_neg (not_lt.2 h)]
  rfl

/-- A number that is not negative goes up when its fraction is one half or more. -/
theorem halfAway_eq_floor {x : Rat} (h : 0 ≤ x) :
    halfAway x = if 1 ≤ 2 * (x - ⌊x⌋) then ⌊x⌋ + 1 else ⌊x⌋ := by
  have hle := Int.floor_le x
  have hlt := Int.lt_floor_add_one x
  rw [halfAway_of_nonneg h, Int.floor_eq_iff]
  split
  · push_cast
    constructor <;> linarith
  · constructor <;> linarith

/-- The sign is put on last. -/
theorem halfAway_eq_ite (x : Rat) : halfAway x = if x < 0 then -halfAway |x| else halfAway |x| := by
  split
  · next hneg => rw [abs_of_neg hneg, halfAway_neg, Int.neg_neg]
  · next hpos => rw [abs_of_nonneg (not_lt.1 hpos)]

/-- The bound on the distance, with the absolute value of an ordered field. -/
theorem abs_sub_halfAway_le (x : Rat) : |x - halfAway x| ≤ 1 / 2 := by
  have hdist := abs_halfAway_sub_le x
  rw [Rat.abs_sub_comm] at hdist
  rcases le_total 0 (x - halfAway x) with h | h
  · rwa [abs_of_nonneg h, ← Rat.abs_of_nonneg h]
  · rwa [abs_of_nonpos h, ← Rat.abs_of_nonpos h]

/-- No other integer is within one half. -/
theorem halfAway_eq_of_abs_sub_lt {x : Rat} {n : Int} (h : |x - n| < 1 / 2) : halfAway x = n := by
  have hnear := abs_sub_halfAway_le x
  have hlt : |((halfAway x - n : Int) : Rat)| < 1 := by
    have hsplit : ((halfAway x - n : Int) : Rat) = x - n - (x - halfAway x) := by
      push_cast
      ring
    rw [hsplit]
    have := abs_sub (x - n) (x - halfAway x)
    linarith
  have habs : |halfAway x - n| < 1 := by exact_mod_cast hlt
  have := Int.abs_lt_one_iff.1 habs
  omega

/-- Of the integers within one half, a number that is not negative goes to the one above it. -/
theorem halfAway_eq_of_abs_sub_le {x : Rat} {n : Int} (hx : 0 ≤ x) (h : |x - n| ≤ 1 / 2)
    (htie : |x - n| = 1 / 2 → x < n) : halfAway x = n := by
  have hnear := abs_le.1 h
  have hbelow : x - n < 1 / 2 := by
    refine lt_of_le_of_ne hnear.2 fun heq => ?_
    have := htie (by rw [heq, abs_of_pos (by norm_num)])
    linarith
  rw [halfAway_of_nonneg hx, Int.floor_eq_iff]
  constructor <;> linarith

/-- Rounding keeps the order of numbers. -/
theorem halfAway_mono {x y : Rat} (h : x ≤ y) : halfAway x ≤ halfAway y := by
  by_contra hlt
  have hstep : halfAway y + 1 ≤ halfAway x := Int.add_one_le_of_lt (not_le.1 hlt)
  have hcast : (halfAway y : Rat) + 1 ≤ halfAway x := by exact_mod_cast hstep
  have hx := abs_le.1 (abs_sub_halfAway_le x)
  have hy := abs_le.1 (abs_sub_halfAway_le y)
  -- two integers that are one apart are both within one half of one number only
  obtain rfl : x = y := by linarith
  omega

/-- Integers are not crossed. -/
theorem le_halfAway {x : Rat} {n : Int} (h : n ≤ x) : n ≤ halfAway x :=
  (halfAway_intCast n).symm.trans_le (halfAway_mono h)

theorem halfAway_le {x : Rat} {n : Int} (h : x ≤ n) : halfAway x ≤ n :=
  (halfAway_mono h).trans_eq (halfAway_intCast n)

/-- A positive integer is reached from one half below it on. -/
theorem le_halfAway_iff {n : Int} (hn : 0 < n) (x : Rat) : n ≤ halfAway x ↔ n - 1 / 2 ≤ x := by
  rcases le_or_gt 0 x with hx | hx
  · rw [halfAway_of_nonneg hx, Int.le_floor, sub_le_iff_le_add]
  · have hone : (1 : Rat) ≤ n := by exact_mod_cast hn
    have hround : halfAway x ≤ 0 := halfAway_le (by rw [Int.cast_zero]; exact hx.le)
    exact iff_of_false (by omega) (by linarith)

/-- The nearest integer to a quotient, told without division. -/
theorem halfAway_div {s c : Nat} {a : Int} (hc : c ≠ 0) (hnear : 2 * (a * c - s).natAbs ≤ c)
    (htie : 2 * (a * c - s).natAbs = c → s < (a * c).natAbs) : halfAway (s / c) = a := by
  have hpos : (0 : Rat) < c := by exact_mod_cast Nat.pos_of_ne_zero hc
  have hdist : 2 * |(s : Rat) / c - a| * c = ((2 * (a * c - s).natAbs : Nat) : Rat) := by
    have hdiff : ((s : Rat) / c - a) * c = -((a * c - s : Int) : Rat) := by
      push_cast
      field_simp
      ring
    rw [mul_assoc, ← abs_of_pos hpos, ← abs_mul, abs_of_pos hpos, hdiff, abs_neg, abs_intCast]
    push_cast
    rfl
  apply halfAway_eq_of_abs_sub_le (by positivity)
  · have hcast : ((2 * (a * c - s).natAbs : Nat) : Rat) ≤ c := by exact_mod_cast hnear
    rw [← hdist] at hcast
    have hle := le_of_mul_le_mul_right (hcast.trans_eq (one_mul _).symm) hpos
    linarith
  · intro heq
    have hnonneg : -1 < a := by
      by_contra hneg
      have hmul : a * c ≤ -1 * c := Int.mul_le_mul_of_nonneg_right (by omega) (by omega)
      omega
    have hproduct : 0 ≤ a * c := Int.mul_nonneg (by omega) (by omega)
    rw [heq] at hdist
    have hcast : ((2 * (a * c - s).natAbs : Nat) : Rat) = c := by linarith
    have hlt := htie (by exact_mod_cast hcast)
    rw [div_lt_iff₀ hpos]
    exact_mod_cast (show (s : Int) < a * c by omega)

/-- A sign is put on before rounding or after it. -/
theorem halfAway_sign_mul {s : Int} (hs : s = 1 ∨ s = -1) (x : Rat) :
    halfAway (s * x) = s * halfAway x := by
  rcases hs with rfl | rfl
  · rw [Int.cast_one, one_mul, one_mul]
  · rw [Int.cast_neg, Int.cast_one, neg_one_mul, neg_one_mul, halfAway_neg]

/-- Large numbers stay large. -/
theorem large_halfAway {r : Rat} (h : (10 : Rat) ^ 21 ≤ |r|) :
    (10 : Rat) ^ 21 - 1 ≤ |(halfAway r : Rat)| := by
  have hnear := abs_sub_halfAway_le r
  have htriangle := abs_sub_abs_le_abs_sub r (halfAway r)
  linarith

/-! ## The integer towards zero -/

/-- The sign is put on last. -/
theorem natAbs_towardZero (x : Rat) : ((towardZero x).natAbs : Int) = ⌊|x|⌋ := by
  have hfloor : 0 ≤ ⌊|x|⌋ := Int.floor_nonneg.2 (abs_nonneg x)
  unfold towardZero
  split
  · next hneg =>
    rw [abs_of_neg hneg] at hfloor ⊢
    show (((-⌊-x⌋).natAbs : Nat) : Int) = ⌊-x⌋
    omega
  · next hpos =>
    rw [abs_of_nonneg (not_lt.1 hpos)] at hfloor ⊢
    show ((⌊x⌋.natAbs : Nat) : Int) = ⌊x⌋
    omega

theorem towardZero_neg_iff (x : Rat) : towardZero x < 0 ↔ x < 0 ∧ towardZero x ≠ 0 := by
  unfold towardZero
  split
  · next hneg =>
    have hfloor : 0 ≤ ⌊-x⌋ := Int.floor_nonneg.2 (neg_nonneg.2 hneg.le)
    show -⌊-x⌋ < 0 ↔ x < 0 ∧ -⌊-x⌋ ≠ 0
    rw [and_iff_right hneg]
    omega
  · next hpos =>
    have hfloor : 0 ≤ ⌊x⌋ := Int.floor_nonneg.2 (not_lt.1 hpos)
    show ⌊x⌋ < 0 ↔ _
    exact iff_of_false (not_lt.2 hfloor) fun h => hpos h.1

@[simp] theorem towardZero_intCast (n : Int) : towardZero n = n := by
  unfold towardZero
  split
  · rw [← Rat.intCast_neg]
    show -⌊((-n : Int) : Rat)⌋ = n
    rw [Int.floor_intCast, Int.neg_neg]
  · show ⌊(n : Rat)⌋ = n
    exact Int.floor_intCast n

theorem towardZero_eq_zero {x : Rat} (h : |x| < 1) : towardZero x = 0 := by
  rw [← Int.natAbs_eq_zero, ← Int.natCast_eq_zero, natAbs_towardZero, Int.floor_eq_zero_iff]
  exact ⟨abs_nonneg x, h⟩

/-- A number that has no more than the places is not cut. -/
theorem cutPlaces_of_whole {r : Rat} {places : Nat} {n : Int} (h : r * 10 ^ places = n) :
    cutPlaces r places = r := by
  rw [cutPlaces, h, towardZero_intCast, ← h, mul_div_cancel_right₀ _ (by positivity)]

/-- Nothing is left of a number below the unit of the last place. -/
theorem cutPlaces_eq_zero {r : Rat} {places : Nat} (h : |r| * 10 ^ places < 1) :
    cutPlaces r places = 0 := by
  have hscaled : |r * 10 ^ places| < 1 := by
    rwa [abs_mul, abs_of_pos (show (0 : Rat) < 10 ^ places by positivity)]
  rw [cutPlaces, towardZero_eq_zero hscaled, Int.cast_zero, zero_div]

/-! ## Ties -/

/-- `x` lies half way between two integers. -/
def IsTie (x : Rat) : Prop := |x - halfAway x| = 1 / 2

instance (x : Rat) : Decidable (IsTie x) := inferInstanceAs (Decidable (_ = _))

theorem isTie_neg (x : Rat) : IsTie (-x) ↔ IsTie x := by
  unfold IsTie
  rw [halfAway_neg, Int.cast_neg, ← neg_sub', abs_neg]

theorem IsTie.halfAway_eq {x : Rat} (htie : IsTie x) (hx : 0 ≤ x) :
    (halfAway x : Rat) = x + 1 / 2 := by
  have hround := halfAway_of_nonneg hx
  have habove := Int.lt_floor_add_one (x + 1 / 2)
  rw [← hround] at habove
  rcases (abs_eq (show (0 : Rat) ≤ 1 / 2 by norm_num)).1 htie with h | h <;> linarith

/-- A number just below a tie is rounded to the integer below. -/
theorem halfAway_below_tie {x r : Rat} (hx : 0 ≤ x) (htie : IsTie x) (hlt : r < x)
    (hshort : x - r < 1 / 2) : halfAway r = halfAway x - 1 := by
  apply halfAway_eq_of_abs_sub_lt
  have hround := htie.halfAway_eq hx
  push_cast
  rw [abs_lt]
  constructor <;> linarith

theorem isTie_sign_mul {s : Int} (hs : s = 1 ∨ s = -1) (x : Rat) : IsTie (s * x) ↔ IsTie x := by
  rcases hs with rfl | rfl
  · rw [Int.cast_one, one_mul]
  · rw [Int.cast_neg, Int.cast_one, neg_one_mul, isTie_neg]

/-! ## Grids -/

/-- A number on a grid that holds the ties can be lessened by less than a step of it. -/
theorem halfAway_below_of_grid {x r u : Rat} {m : Int} (hx : 0 ≤ x) (htie : ¬ IsTie x)
    (hu : 0 < u) (hgrid : x - (halfAway x - 1 / 2) = m * u) (hle : r ≤ x) (hshort : x - r < u) :
    halfAway r = halfAway x := by
  apply halfAway_eq_of_abs_sub_lt
  have hnear := abs_le.1 (abs_sub_halfAway_le x)
  have hround := halfAway_of_nonneg hx
  have habove := Int.lt_floor_add_one (x + 1 / 2)
  rw [← hround] at habove
  have hbelow : 0 < x - (halfAway x - 1 / 2) := by
    refine lt_of_le_of_ne (by linarith) fun heq => htie ?_
    have hdown : x - halfAway x = -(1 / 2) := by linarith
    rw [IsTie, hdown]
    norm_num
  have hm : (1 : Rat) ≤ m := by
    rw [hgrid] at hbelow
    exact_mod_cast pos_of_mul_pos_left hbelow hu.le
  have hstep := mul_le_mul_of_nonneg_right hm hu.le
  rw [abs_lt]
  constructor <;> linarith

/-- The step of the grid of a decimal exponent and of the halves. -/
def gridStep (f : Int) : Rat := if f < 0 then (10 : Rat) ^ f else 1 / 2

theorem gridStep_pos (f : Int) : 0 < gridStep f := by
  unfold gridStep
  split
  · positivity
  · norm_num

theorem gridStep_le (f : Int) : gridStep f ≤ 1 / 2 := by
  unfold gridStep
  split
  · next h =>
    have hle : (10 : Rat) ^ f ≤ 10 ^ (-1 : Int) := zpow_le_zpow_right₀ (by norm_num) (by omega)
    norm_num at hle
    linarith
  · exact le_rfl

theorem exists_mul_gridStep (a n f : Int) :
    ∃ m : Int, (a : Rat) * (10 : Rat) ^ f - (n - 1 / 2) = m * gridStep f := by
  unfold gridStep
  split
  · next h =>
    obtain ⟨k, hk⟩ : ∃ k : Nat, f = -(k + 1 : Nat) := ⟨(-f - 1).toNat, by omega⟩
    refine ⟨a - n * 10 ^ (k + 1) + 5 * 10 ^ k, ?_⟩
    rw [hk, zpow_neg, zpow_natCast]
    push_cast
    field_simp
    ring
  · next h =>
    obtain ⟨k, hk⟩ : ∃ k : Nat, f = k := ⟨f.toNat, by omega⟩
    refine ⟨2 * (a * 10 ^ k - n) + 1, ?_⟩
    rw [hk, zpow_natCast]
    push_cast
    ring

/-! ## Places -/

section Places

variable (r : Rat) (places : Nat)

@[simp] theorem toPlaces_zero_places : toPlaces r 0 = halfAway r := by
  rw [toPlaces, pow_zero, mul_one, div_one]

@[simp] theorem toPlaces_zero : toPlaces 0 places = 0 := by
  rw [toPlaces, zero_mul, ← Int.cast_zero, halfAway_intCast, Int.cast_zero, zero_div]

theorem toPlaces_neg : toPlaces (-r) places = -toPlaces r places := by
  unfold toPlaces
  rw [neg_mul, halfAway_neg, Int.cast_neg, neg_div]

/-- The result in units of its last place. -/
theorem toPlaces_eq_mul_zpow :
    toPlaces r places = halfAway (r * 10 ^ places) * (10 : Rat) ^ (-(places : Int)) := by
  rw [toPlaces, zpow_neg, zpow_natCast, div_eq_mul_inv]

variable {r} in
theorem exists_toPlaces_eq (h : 0 ≤ r) :
    ∃ m : Nat, toPlaces r places = m * (10 : Rat) ^ (-(places : Int)) := by
  have hround : 0 ≤ halfAway (r * 10 ^ places) := by
    rw [halfAway_of_nonneg (by positivity), Int.floor_nonneg]
    positivity
  obtain ⟨m, hm⟩ := Int.eq_ofNat_of_zero_le hround
  exact ⟨m, by rw [toPlaces_eq_mul_zpow, hm, Int.cast_natCast]⟩

variable {r} in
theorem toPlaces_nonneg (h : 0 ≤ r) : 0 ≤ toPlaces r places := by
  obtain ⟨m, hm⟩ := exists_toPlaces_eq places h
  rw [hm]
  positivity

/-- Rounding does not tell the signs apart. -/
theorem abs_toPlaces : |toPlaces r places| = toPlaces |r| places := by
  rcases le_total 0 r with h | h
  · rw [abs_of_nonneg h, abs_of_nonneg (toPlaces_nonneg places h)]
  · have hback := toPlaces_nonneg places (neg_nonneg.2 h)
    rw [abs_of_nonpos h]
    rw [toPlaces_neg] at hback ⊢
    exact abs_of_nonpos (neg_nonneg.1 hback)

/-- A distance in units of the last place. -/
theorem abs_sub_mul_zpow (n : Int) :
    |r - n * (10 : Rat) ^ (-(places : Int))| =
      |r * 10 ^ places - n| * (10 : Rat) ^ (-(places : Int)) := by
  have hunit : (0 : Rat) < (10 : Rat) ^ (-(places : Int)) := by positivity
  have hscale : (10 : Rat) ^ places * (10 : Rat) ^ (-(places : Int)) = 1 := by
    rw [zpow_neg, zpow_natCast, mul_inv_cancel₀ (by positivity)]
  have hsplit : r - n * (10 : Rat) ^ (-(places : Int)) =
      (r * 10 ^ places - n) * (10 : Rat) ^ (-(places : Int)) := by
    rw [sub_mul, mul_assoc, hscale, mul_one]
  rw [hsplit, abs_mul, abs_of_pos hunit]

/-- Rounding moves a number by half a unit of the last place at most. -/
theorem abs_toPlaces_sub_le : |toPlaces r places - r| ≤ (10 : Rat) ^ (-(places : Int)) / 2 := by
  rw [abs_sub_comm, toPlaces_eq_mul_zpow, abs_sub_mul_zpow, div_eq_inv_mul, inv_eq_one_div]
  exact mul_le_mul_of_nonneg_right (abs_sub_halfAway_le _) (by positivity)

end Places

/-- A number that is not rounded down to zero is rounded to a unit of the last place at least. -/
theorem le_toPlaces_of_pos {r : Rat} {places : Nat} (h : 0 < toPlaces r places) :
    (10 : Rat) ^ (-(places : Int)) ≤ toPlaces r places := by
  have hunit : (0 : Rat) < (10 : Rat) ^ (-(places : Int)) := by positivity
  rw [toPlaces_eq_mul_zpow] at h ⊢
  have hone : (1 : Rat) ≤ halfAway (r * 10 ^ places) := by
    exact_mod_cast pos_of_mul_pos_left h hunit.le
  exact le_mul_of_one_le_left hunit.le hone

/-- No other number with these places is within half a unit of the last one. -/
theorem toPlaces_eq_of_abs_sub_lt {r : Rat} {n : Int} {places : Nat}
    (h : |r - n * (10 : Rat) ^ (-(places : Int))| < (10 : Rat) ^ (-(places : Int)) / 2) :
    toPlaces r places = n * (10 : Rat) ^ (-(places : Int)) := by
  rw [abs_sub_mul_zpow, div_eq_inv_mul, inv_eq_one_div] at h
  have hscaled : |r * 10 ^ places - n| < 1 / 2 := lt_of_mul_lt_mul_right h (by positivity)
  rw [toPlaces_eq_mul_zpow, halfAway_eq_of_abs_sub_lt hscaled]

/-- A number that has no more than the places asked for is left alone. -/
theorem toPlaces_of_grid {a e : Int} {places : Nat} (h : -(places : Int) ≤ e) :
    toPlaces (a * (10 : Rat) ^ e) places = a * (10 : Rat) ^ e := by
  obtain ⟨k, hk⟩ := Int.le.dest h
  have hscaled : (a : Rat) * (10 : Rat) ^ e * 10 ^ places = (a * 10 ^ k : Int) := by
    rw [← hk, zpow_add₀ (by norm_num), zpow_neg, zpow_natCast, zpow_natCast]
    push_cast
    field_simp
  rw [toPlaces, hscaled, halfAway_intCast, ← hscaled, mul_div_cancel_right₀ _ (by positivity)]

/-! ## Significant digits -/

/-- The unit of the last of the significant digits of `r`. -/
def lastUnit (r : Rat) (digits : Nat) : Rat := (10 : Rat) ^ (Int.log 10 |r| + 1 - digits)

/-- `r` with so many significant digits, a half going away from zero. -/
def toDigits (r : Rat) (digits : Nat) : Rat := halfAway (r / lastUnit r digits) * lastUnit r digits

end UnitLedger.Exact
