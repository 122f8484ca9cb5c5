import UnitLedger.Decimal.Value
import Mathlib.Algebra.Order.Field.Power
import Mathlib.Data.Rat.Floor
import Mathlib.Tactic.FieldSimp
import Mathlib.Tactic.Linarith
import Mathlib.Tactic.NormNum
import Mathlib.Tactic.Positivity
import Mathlib.Tactic.Ring
set_option autoImplicit false

/-! # What a precision keeps

Rounding to `p` significant digits leaves a number alone exactly when it has no more than `p` of
them, and otherwise moves it by half a unit of the last digit at most.  `Keeps p r` is the first
condition, on the value and not on one of the ways to write it; `toRat_rounded_of_keeps` and
`abs_rounded_sub_le` are the two facts.
-/

namespace UnitLedger

namespace Numeral

/-! ## Digit counts -/

theorem digitCount_mono {m n : Nat} (h : m ≤ n) : digitCount m ≤ digitCount n := by
  rw [digitCount_le_iff]
  exact Nat.lt_of_le_of_lt h (lt_pow_digitCount n)

theorem pow_le_of_ne_zero {n : Nat} (h : n ≠ 0) : 10 ^ (digitCount n - 1) ≤ n := by
  have hpos := (digitCount_pos_iff n).2 h
  rw [← lt_digitCount_iff]
  omega

theorem digitCount_mul_le (m n : Nat) : digitCount (m * n) ≤ digitCount m + digitCount n := by
  rw [digitCount_le_iff, Nat.pow_add]
  exact Nat.mul_lt_mul'' (lt_pow_digitCount m) (lt_pow_digitCount n)

theorem digitCount_mul_pow {n : Nat} (h : n ≠ 0) (k : Nat) :
    digitCount (n * 10 ^ k) = digitCount n + k := by
  have hpow : 0 < 10 ^ k := Nat.pow_pos (by decide)
  apply Nat.le_antisymm
  · rw [digitCount_le_iff, Nat.pow_add]
    exact Nat.mul_lt_mul_of_pos_right (lt_pow_digitCount n) hpow
  · have hpos := (digitCount_pos_iff n).2 h
    have hsplit : digitCount n + k = digitCount n - 1 + k + 1 := by omega
    rw [hsplit, Nat.succ_le_iff, lt_digitCount_iff, Nat.pow_add]
    exact Nat.mul_le_mul_right _ (pow_le_of_ne_zero h)

end Numeral

namespace Decimal

open Numeral

/-- Arithmetic of precision `p` has room for `r`: it is a decimal of at most `p` significant digits.
Precision zero has room for everything. -/
def Keeps (p : Nat) (r : Rat) : Prop :=
  p = 0 ∨ ∃ s e : Int, digitCount s.natAbs ≤ p ∧ r = s * (10 : Rat) ^ e

theorem Keeps.mono {p q : Nat} {r : Rat} (h : Keeps p r) (hp : p ≠ 0) (hpq : p ≤ q) :
    Keeps q r := by
  rcases h with hzero | ⟨s, e, hs, hr⟩
  · exact absurd hzero hp
  · exact Or.inr ⟨s, e, Nat.le_trans hs hpq, hr⟩

theorem keeps_of_digitCount_le {p : Nat} {s : Int} (h : digitCount s.natAbs ≤ p) (e : Int) :
    Keeps p (s * (10 : Rat) ^ e) :=
  Or.inr ⟨s, e, h, rfl⟩

/-- Moving the point does not change the digits. -/
theorem Keeps.mul_zpow {p : Nat} {r : Rat} (h : Keeps p r) (f : Int) :
    Keeps p (r * (10 : Rat) ^ f) := by
  rcases h with hzero | ⟨s, e, hs, hr⟩
  · exact Or.inl hzero
  · refine Or.inr ⟨s, e + f, hs, ?_⟩
    rw [hr, Rat.zpow_add (by decide), mul_assoc]

/-- A product has no more digits than its factors together. -/
theorem Keeps.mul {p q : Nat} {r t : Rat} (hr : Keeps p r) (ht : Keeps q t) (hp : p ≠ 0)
    (hq : q ≠ 0) : Keeps (p + q) (r * t) := by
  obtain ⟨a, e, ha, rfl⟩ := hr.resolve_left hp
  obtain ⟨b, f, hb, rfl⟩ := ht.resolve_left hq
  refine Or.inr ⟨a * b, e + f, ?_, ?_⟩
  · rw [Int.natAbs_mul]
    exact Nat.le_trans (digitCount_mul_le _ _) (Nat.add_le_add ha hb)
  · rw [Rat.zpow_add (by decide)]
    push_cast
    ring

theorem Keeps.neg {p : Nat} {r : Rat} (h : Keeps p r) : Keeps p (-r) := by
  rcases h with hzero | ⟨s, e, hs, hr⟩
  · exact Or.inl hzero
  · refine Or.inr ⟨-s, e, ?_, ?_⟩
    · rwa [Int.natAbs_neg]
    · rw [hr, Rat.intCast_neg, Rat.neg_mul]

/-- A positive number has its first digit somewhere. -/
theorem exists_decade {s e : Int} (h : 0 < (s : Rat) * (10 : Rat) ^ e) :
    (10 : Rat) ^ (e + digitCount s.natAbs - 1) ≤ s * (10 : Rat) ^ e ∧
      (s : Rat) * (10 : Rat) ^ e < (10 : Rat) ^ (e + digitCount s.natAbs) := by
  have hten : (0 : Rat) < 10 ^ e := by positivity
  have hs : 0 < s := by exact_mod_cast pos_of_mul_pos_left h hten.le
  have hcast : (s : Rat) = (s.natAbs : Rat) := by
    rw [Nat.cast_natAbs, abs_of_pos hs]
  have hne : s.natAbs ≠ 0 := by omega
  have hpos := (digitCount_pos_iff s.natAbs).2 hne
  rw [hcast]
  constructor
  · have hexp : e + digitCount s.natAbs - 1 = ((digitCount s.natAbs - 1 : Nat) : Int) + e := by
      omega
    rw [hexp, Rat.zpow_add (by decide), Rat.zpow_natCast]
    refine mul_le_mul_of_nonneg_right ?_ hten.le
    exact_mod_cast pow_le_of_ne_zero hne
  · rw [add_comm, Rat.zpow_add (by decide), Rat.zpow_natCast]
    refine mul_lt_mul_of_pos_right ?_ hten
    exact_mod_cast lt_pow_digitCount s.natAbs

/-- A number of `p` digits is a multiple of its last one. -/
theorem Keeps.exists_mul_zpow {p : Nat} {r : Rat} (h : Keeps p r) (hp : p ≠ 0) {k : Int}
    (hk : (10 : Rat) ^ (k - 1) ≤ r) : ∃ a : Nat, r = a * (10 : Rat) ^ (k - p) := by
  obtain ⟨s, e, hs, rfl⟩ := h.resolve_left hp
  have hpos : 0 < (s : Rat) * (10 : Rat) ^ e := lt_of_lt_of_le (by positivity) hk
  have hlt := lt_of_le_of_lt hk (exists_decade hpos).2
  rw [zpow_lt_zpow_iff_right₀ (by norm_num)] at hlt
  have hle : k - p ≤ e := by omega
  have hs0 : 0 < s := by exact_mod_cast pos_of_mul_pos_left hpos (by positivity)
  obtain ⟨a, ha⟩ := Int.eq_ofNat_of_zero_le (show 0 ≤ s * 10 ^ (e - (k - p)).toNat by positivity)
  refine ⟨a, ?_⟩
  rw [mul_zpow_of_le s hle, ha, Int.cast_natCast]

/-- Two different numbers of `p` digits are apart by a unit of the last one. -/
theorem Keeps.gap {p : Nat} {a b : Rat} (ha : Keeps p a) (hb : Keeps p b) (hp : p ≠ 0)
    (hpos : 0 < a) (hab : a < b) : a * (10 : Rat) ^ (-(p : Int)) < b - a := by
  obtain ⟨s, e, -, hs⟩ := ha.resolve_left hp
  rw [hs] at hpos
  obtain ⟨hlow, hhigh⟩ := exists_decade hpos
  rw [← hs] at hlow hhigh
  generalize e + digitCount s.natAbs = k at hlow hhigh
  obtain ⟨m, hm⟩ := ha.exists_mul_zpow hp hlow
  obtain ⟨n, hn⟩ := hb.exists_mul_zpow hp (hlow.trans hab.le)
  have hunit : (0 : Rat) < 10 ^ (k - p) := by positivity
  have hmn : m + 1 ≤ n := by
    rw [hm, hn] at hab
    exact_mod_cast lt_of_mul_lt_mul_right hab hunit.le
  have hmn' : (m : Rat) + 1 ≤ n := by exact_mod_cast hmn
  have hdiff : (10 : Rat) ^ (k - p) ≤ b - a := by
    rw [hm, hn, ← sub_mul]
    exact le_mul_of_one_le_left hunit.le (by linarith)
  refine lt_of_lt_of_le ?_ hdiff
  rw [sub_eq_add_neg, Rat.zpow_add (by decide)]
  exact mul_lt_mul_of_pos_right hhigh (by positivity)

/-- The power of ten itself has more digits, but all of them are zeros. -/
theorem keeps_of_natAbs_le_pow {p : Nat} {a : Int} (hp : p ≠ 0) (h : a.natAbs ≤ 10 ^ p) (e : Int) :
    Keeps p (a * (10 : Rat) ^ e) := by
  rcases Nat.lt_or_eq_of_le h with hlt | heq
  · exact keeps_of_digitCount_le ((digitCount_le_iff _ _).2 hlt) e
  · have ha : a = a.sign * 10 ^ p := by
      have hcast : (10 : Int) ^ p = (a.natAbs : Int) := by simp [heq]
      rw [hcast, Int.sign_mul_natAbs]
    have hdigit : digitCount a.sign.natAbs ≤ 1 := by
      rw [digitCount_le_iff]
      rcases Int.sign_trichotomy a with hs | hs | hs <;> rw [hs] <;> decide
    have hvalue : (a : Rat) * (10 : Rat) ^ e = (a.sign : Rat) * (10 : Rat) ^ (p + e) := by
      conv => lhs; rw [ha]
      rw [Rat.zpow_add (by decide), Rat.zpow_natCast]
      push_cast
      ring
    rw [hvalue]
    exact (keeps_of_digitCount_le hdigit _).mono (by decide) (by omega)

/-- However a kept number is written, the zeros at the end can be split off so that few digits
remain. -/
theorem exists_eq_mul_pow_of_keeps {p : Nat} {s e : Int} (hp : p ≠ 0)
    (h : Keeps p (s * (10 : Rat) ^ e)) :
    ∃ (a : Int) (t : Nat), s = a * 10 ^ t ∧ digitCount a.natAbs ≤ p := by
  obtain ⟨b, f, hb, hr⟩ := h.resolve_left hp
  rcases Int.le_total e f with hle | hle
  · refine ⟨b, (f - e).toNat, ?_, hb⟩
    rw [mul_zpow_of_le b hle] at hr
    exact Rat.intCast_inj.1 (mul_right_cancel₀ (ten_zpow_ne_zero e) hr)
  · refine ⟨s, 0, by simp, ?_⟩
    rw [mul_zpow_of_le s hle] at hr
    have hsb : s * 10 ^ (e - f).toNat = b :=
      Rat.intCast_inj.1 (mul_right_cancel₀ (ten_zpow_ne_zero f) hr)
    refine Nat.le_trans (digitCount_mono ?_) hb
    rw [← hsb, Int.natAbs_mul, Int.natAbs_pow]
    exact Nat.le_mul_of_pos_right _ (Nat.pow_pos (by decide))

/-- A number in normal form is written with the fewest digits. -/
theorem length_le_iff_keeps {p : Nat} (x : Decimal) (hp : p ≠ 0) :
    x.length ≤ p ↔ Keeps p x.toRat := by
  constructor
  · intro h
    exact keeps_of_digitCount_le h x.exponent
  · intro h
    obtain ⟨a, t, hs, ha⟩ := exists_eq_mul_pow_of_keeps hp h
    have hnormal := x.normal
    unfold IsNormal at hnormal
    split at hnormal
    · next hzero => simp [length, hzero]
    · next hne =>
      cases t with
      | zero => simpa [length, hs] using ha
      | succ t =>
        rw [hs, Int.pow_succ, ← Int.mul_assoc] at hnormal
        omega

/-! ## Rounding to a number of digits -/

@[simp] theorem adjustment_zero (hi : Int) (k : Nat) : adjustment hi 0 k = 0 := by
  have h : compareHalf 0 k = .lt := by simp [compareHalf]
  simp [adjustment, h]

@[simp] theorem rounded_precision (s e : Int) (p : Nat) : (rounded s e p).precision = p := by
  unfold rounded
  dsimp only
  split
  · exact ofParts_precision s e p
  · exact ofParts_precision _ _ p

/-- What is added to the high part differs from the low part by half a unit at most. -/
theorem natAbs_adjustment_sub_le {lo : Int} {k : Nat} (hi : Int) (h : lo.natAbs < 10 ^ k) :
    2 * (adjustment hi lo k * 10 ^ k - lo).natAbs ≤ 10 ^ k := by
  have hcast : (10 : Int) ^ k = ((10 ^ k : Nat) : Int) := by simp
  have haway : (lo.sign * 10 ^ k - lo).natAbs = 10 ^ k - lo.natAbs ∨ lo = 0 := by
    rcases lt_trichotomy lo 0 with hlo | hlo | hlo
    · rw [Int.sign_eq_neg_one_of_neg hlo, hcast]
      omega
    · exact Or.inr hlo
    · rw [Int.sign_eq_one_of_pos hlo, hcast]
      omega
  unfold adjustment
  rw [compareHalf_eq]
  split
  · next hlt =>
    rw [Nat.compare_eq_lt] at hlt
    rw [zero_mul, zero_sub, Int.natAbs_neg]
    exact Nat.le_of_lt hlt
  · next heq =>
    rw [Nat.compare_eq_eq] at heq
    split
    · rw [zero_mul, zero_sub, Int.natAbs_neg]
      exact Nat.le_of_eq heq
    · omega
  · next hgt =>
    rw [Nat.compare_eq_gt] at hgt
    omega

/-- The parts of a cut number have its sign. -/
theorem tdiv_tmod_same_sign (s : Int) {c : Int} (hc : 0 ≤ c) :
    0 ≤ s.tdiv c ∧ 0 ≤ s.tmod c ∨ s.tdiv c ≤ 0 ∧ s.tmod c ≤ 0 := by
  rcases Int.le_total 0 s with hs | hs
  · exact Or.inl ⟨Int.tdiv_nonneg hs hc, Int.tmod_nonneg c hs⟩
  · right
    have hneg := Int.neg_nonneg_of_nonpos hs
    have hdiv := Int.tdiv_nonneg hneg hc
    have hmod := Int.tmod_nonneg c hneg
    rw [Int.neg_tdiv] at hdiv
    rw [Int.neg_tmod] at hmod
    exact ⟨by omega, by omega⟩

/-- Half a unit is added to a number and never taken off it. -/
theorem natAbs_lt_of_tie {hi lo : Int} {k : Nat} (hsmall : lo.natAbs < 10 ^ k)
    (hsame : 0 ≤ hi ∧ 0 ≤ lo ∨ hi ≤ 0 ∧ lo ≤ 0)
    (h : 2 * (adjustment hi lo k * 10 ^ k - lo).natAbs = 10 ^ k) :
    (10 ^ k * hi + lo).natAbs < ((hi + adjustment hi lo k) * 10 ^ k).natAbs := by
  have hpow : 0 < 10 ^ k := Nat.pow_pos (Nat.succ_pos 9)
  have hcast : (10 : Int) ^ k = ((10 ^ k : Nat) : Int) := by simp
  have hsign : lo.sign = 1 ∧ 0 < lo ∨ lo.sign = -1 ∧ lo < 0 ∨ lo = 0 := by
    rcases lt_trichotomy lo 0 with hlo | hlo | hlo
    · exact Or.inr (Or.inl ⟨Int.sign_eq_neg_one_of_neg hlo, hlo⟩)
    · exact Or.inr (Or.inr hlo)
    · exact Or.inl ⟨Int.sign_eq_one_of_pos hlo, hlo⟩
  have hhalf : 2 * lo.natAbs = 10 ^ k ∧ adjustment hi lo k = lo.sign := by
    unfold adjustment at h ⊢
    rw [compareHalf_eq] at h ⊢
    rw [hcast] at h
    split at h
    · next hlt =>
      rw [Nat.compare_eq_lt] at hlt
      omega
    · next heq =>
      rw [Nat.compare_eq_eq] at heq
      refine ⟨heq, ?_⟩
      refine if_neg fun hopposite => ?_
      have hnonneg := Int.sign_nonneg_iff (x := hi)
      have hnonpos := Int.sign_nonpos_iff (x := hi)
      omega
    · next hgt =>
      rw [Nat.compare_eq_gt] at hgt
      rcases hsign with ⟨hs, hlo⟩ | ⟨hs, hlo⟩ | hs
      · rw [hs] at h
        omega
      · rw [hs] at h
        omega
      · omega
  obtain ⟨hlo, hadj⟩ := hhalf
  rw [hadj, add_mul, mul_comm]
  rcases hsame with ⟨hhi, hnonneg⟩ | ⟨hhi, hnonpos⟩
  · have hmul : 0 ≤ hi * 10 ^ k := mul_nonneg hhi (by positivity)
    rw [Int.sign_eq_one_of_pos (show 0 < lo by omega), one_mul]
    omega
  · have hmul : hi * 10 ^ k ≤ 0 := mul_nonpos_of_nonpos_of_nonneg hhi (by positivity)
    rw [Int.sign_eq_neg_one_of_neg (show lo < 0 by omega), neg_one_mul]
    omega

/-- Rounding drops the digits beyond the precision, and what it leaves is off by half a unit at
most.  At half a unit it is the larger of the two in size. -/
theorem exists_rounded_eq_ofParts {s : Int} {p : Nat} (e : Int) (hp : p ≠ 0)
    (h : p ≤ digitCount s.natAbs) :
    ∃ a : Int, rounded s e p = ofParts a (e + (digitCount s.natAbs - p : Nat)) p ∧
      2 * (a * 10 ^ (digitCount s.natAbs - p) - s).natAbs ≤ 10 ^ (digitCount s.natAbs - p) ∧
      (2 * (a * 10 ^ (digitCount s.natAbs - p) - s).natAbs = 10 ^ (digitCount s.natAbs - p) →
        s.natAbs < (a * 10 ^ (digitCount s.natAbs - p)).natAbs) := by
  rcases Nat.eq_or_lt_of_le h with heq | hlt
  · refine ⟨s, ?_, ?_, ?_⟩ <;> simp [rounded, ← heq]
  have hnot : ¬ (p = 0 ∨ digitCount s.natAbs ≤ p) := by omega
  generalize hk : digitCount s.natAbs - p = k
  have hlo : (s.tmod (10 ^ k)).natAbs < 10 ^ k := by
    rw [Int.natAbs_tmod, Int.natAbs_pow]
    exact Nat.mod_lt _ (Nat.pow_pos (by decide))
  have hsplit := Int.mul_tdiv_add_tmod s (10 ^ k)
  have heq : (s.tdiv (10 ^ k) + adjustment (s.tdiv (10 ^ k)) (s.tmod (10 ^ k)) k) * 10 ^ k - s
      = adjustment (s.tdiv (10 ^ k)) (s.tmod (10 ^ k)) k * 10 ^ k - s.tmod (10 ^ k) := by
    rw [add_mul, mul_comm (s.tdiv (10 ^ k))]
    omega
  refine ⟨s.tdiv (10 ^ k) + adjustment (s.tdiv (10 ^ k)) (s.tmod (10 ^ k)) k, ?_, ?_, ?_⟩
  · simp only [rounded, hnot, if_false, hk, cut_eq]
  · rw [heq]
    exact natAbs_adjustment_sub_le _ hlo
  · rw [heq]
    intro htie
    have haway := natAbs_lt_of_tie hlo (tdiv_tmod_same_sign s (by positivity)) htie
    rwa [hsplit] at haway

theorem adjustment_neg (hi lo : Int) (k : Nat) :
    adjustment (-hi) (-lo) k = -adjustment hi lo k := by
  unfold adjustment
  rw [compareHalf_eq, compareHalf_eq, Int.natAbs_neg, Int.sign_neg, Int.sign_neg]
  split
  · rfl
  · by_cases hsigns : hi.sign = -lo.sign
    · rw [if_pos hsigns, if_pos (congrArg Neg.neg hsigns), neg_zero]
    · rw [if_neg hsigns, if_neg fun h => hsigns (neg_injective h)]
  · rfl

/-- Rounding is symmetric about zero. -/
theorem toRat_rounded_neg (s e : Int) (p : Nat) :
    (rounded (-s) e p).toRat = -(rounded s e p).toRat := by
  unfold rounded
  dsimp only
  rw [Int.natAbs_neg]
  split
  · rw [toRat_ofParts, toRat_ofParts, Int.cast_neg, neg_mul]
  · rw [cut_eq, cut_eq]
    dsimp only
    rw [Int.neg_tdiv, Int.neg_tmod, adjustment_neg, ← neg_add, toRat_ofParts, toRat_ofParts,
      Int.cast_neg, neg_mul]

/-- Of a product the size of one factor is rounded, and its sign is given back. -/
theorem toRat_rounded_mul (s c e : Int) (p : Nat) :
    (rounded (s * c) e p).toRat = s.sign * (rounded (s.natAbs * c) e p).toRat := by
  have hvalue := Int.sign_mul_natAbs s
  rcases Int.sign_trichotomy s with hs | hs | hs <;> rw [hs] at hvalue ⊢
  · rw [one_mul] at hvalue
    rw [hvalue, Int.cast_one, one_mul]
  · rw [zero_mul] at hvalue
    rw [← hvalue, zero_mul, Int.cast_zero, zero_mul]
    simp [rounded, toRat]
  · rw [neg_one_mul] at hvalue
    rw [← hvalue, neg_mul, toRat_rounded_neg, Int.natAbs_neg, Int.natAbs_natCast]
    push_cast
    ring

/-- A number with no more digits than the precision is not changed, however it is written. -/
theorem toRat_rounded_of_keeps {s e : Int} {p : Nat} (h : Keeps p (s * (10 : Rat) ^ e)) :
    (rounded s e p).toRat = s * (10 : Rat) ^ e := by
  by_cases hfew : p = 0 ∨ digitCount s.natAbs ≤ p
  · simp [rounded, hfew]
  · have hp : p ≠ 0 := fun hzero => hfew (Or.inl hzero)
    have hlt : p < digitCount s.natAbs := by omega
    obtain ⟨a, hrounded, hnear, -⟩ := exists_rounded_eq_ofParts e hp hlt.le
    obtain ⟨b, t, hs, hb⟩ := exists_eq_mul_pow_of_keeps hp h
    -- the digits that are dropped are zeros, so half a unit is more than what was rounded off
    have hkt : digitCount s.natAbs - p ≤ t := by
      have hle : digitCount s.natAbs ≤ digitCount b.natAbs + t := by
        rw [hs, Int.natAbs_mul, Int.natAbs_pow, digitCount_le_iff, Nat.pow_add]
        exact Nat.mul_lt_mul_of_pos_right (lt_pow_digitCount _) (Nat.pow_pos (by decide))
      omega
    generalize digitCount s.natAbs - p = k at hrounded hnear hkt
    have hsplit : s = b * 10 ^ (t - k) * 10 ^ k := by
      rw [hs, mul_assoc, ← pow_add, Nat.sub_add_cancel hkt]
    have ha : a = b * 10 ^ (t - k) := by
      rw [hsplit, ← sub_mul, Int.natAbs_mul, Int.natAbs_pow, ← mul_assoc] at hnear
      have hsmall := Nat.le_of_mul_le_mul_right (c := 10 ^ k) (by simpa using hnear)
        (Nat.pow_pos (by decide))
      omega
    rw [hrounded, toRat_ofParts, ha, hsplit, Rat.zpow_add (by decide), Rat.zpow_natCast]
    push_cast
    ring

/-- One half against a number of `p` digits before the point. -/
theorem half_le_of_pow_le {r : Rat} {p : Nat} (hp : p ≠ 0) (h : (10 : Rat) ^ (p - 1) ≤ |r|) :
    1 / 2 ≤ |r| * (10 : Rat) ^ (1 - (p : Int)) / 2 := by
  have hexp : 1 - (p : Int) = -((p - 1 : Nat) : Int) := by omega
  have hunit : (10 : Rat) ^ (p - 1) * (10 : Rat) ^ (1 - (p : Int)) = 1 := by
    rw [hexp, Rat.zpow_neg, Rat.zpow_natCast]
    exact mul_inv_cancel₀ (by positivity)
  have := mul_le_mul_of_nonneg_right h (show 0 ≤ (10 : Rat) ^ (1 - (p : Int)) by positivity)
  linarith

/-- Rounding moves a number by half a unit of its last digit at most. -/
theorem abs_rounded_sub_le (s e : Int) {p : Nat} (hp : p ≠ 0) :
    |(rounded s e p).toRat - s * (10 : Rat) ^ e| ≤
      |s * (10 : Rat) ^ e| * (10 : Rat) ^ (1 - (p : Int)) / 2 := by
  by_cases hlt : p < digitCount s.natAbs
  · obtain ⟨a, hrounded, hnear, -⟩ := exists_rounded_eq_ofParts e hp hlt.le
    have hs : 10 ^ (digitCount s.natAbs - 1) ≤ s.natAbs := by
      apply pow_le_of_ne_zero
      intro hzero
      rw [hzero, digitCount_zero] at hlt
      omega
    have hk : digitCount s.natAbs - 1 = p - 1 + (digitCount s.natAbs - p) := by omega
    rw [hk, Nat.pow_add] at hs
    generalize digitCount s.natAbs - p = k at hrounded hnear hs
    have hten : (0 : Rat) < 10 ^ k := by positivity
    have hunit : (0 : Rat) < 10 ^ (e + k) := by positivity
    -- in units of the last digit kept, `s` is `s / 10 ^ k` and the result is `a`
    have hvalue : (s : Rat) * (10 : Rat) ^ e = s / 10 ^ k * (10 : Rat) ^ (e + k) := by
      rw [Rat.zpow_add (by decide), Rat.zpow_natCast]
      field_simp
    have hclose : |(a : Rat) - s / 10 ^ k| ≤ 1 / 2 := by
      have hcast := Rat.natCast_le_natCast.2 hnear
      rw [Rat.natCast_mul, Nat.cast_natAbs] at hcast
      push_cast at hcast
      have hdiff : (a : Rat) - s / 10 ^ k = (a * 10 ^ k - s) / 10 ^ k := by field_simp
      rw [hdiff, abs_div, abs_of_pos hten, div_le_iff₀ hten]
      linarith
    have hlarge : (10 : Rat) ^ (p - 1) ≤ |(s : Rat) / 10 ^ k| := by
      have hcast := Rat.natCast_le_natCast.2 hs
      rw [Nat.cast_natAbs] at hcast
      push_cast at hcast
      rw [abs_div, abs_of_pos hten, le_div_iff₀ hten]
      exact hcast
    rw [hrounded, toRat_ofParts, hvalue, ← sub_mul, abs_mul, abs_mul, abs_of_pos hunit]
    have := mul_le_mul_of_nonneg_right (hclose.trans (half_le_of_pow_le hp hlarge)) hunit.le
    linarith
  · rw [toRat_rounded_of_keeps (keeps_of_digitCount_le (by omega) e), sub_self, abs_zero]
    positivity

/-- A rounded number has no more digits than the precision. -/
theorem length_rounded_le (s e : Int) {p : Nat} (hp : p ≠ 0) : (rounded s e p).length ≤ p := by
  rw [length_le_iff_keeps _ hp]
  by_cases hlt : p < digitCount s.natAbs
  · obtain ⟨a, hrounded, hnear, -⟩ := exists_rounded_eq_ofParts e hp hlt.le
    rw [hrounded, toRat_ofParts]
    apply keeps_of_natAbs_le_pow hp
    have hs := lt_pow_digitCount s.natAbs
    have hk : digitCount s.natAbs = p + (digitCount s.natAbs - p) := by omega
    rw [hk, Nat.pow_add] at hs
    generalize digitCount s.natAbs - p = k at hnear hs
    have hmul : (a * 10 ^ k).natAbs = a.natAbs * 10 ^ k := by
      rw [Int.natAbs_mul, Int.natAbs_pow]
      rfl
    have hbound : 2 * a.natAbs * 10 ^ k < (2 * 10 ^ p + 1) * 10 ^ k := by
      rw [Nat.mul_assoc, ← hmul, Nat.add_mul, Nat.mul_assoc]
      omega
    have := Nat.lt_of_mul_lt_mul_right hbound
    omega
  · rw [toRat_rounded_of_keeps (keeps_of_digitCount_le (by omega) e)]
    exact keeps_of_digitCount_le (by omega) e

end Decimal

end UnitLedger
