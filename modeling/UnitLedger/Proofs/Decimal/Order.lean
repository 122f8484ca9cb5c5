import UnitLedger.Proofs.Decimal.Arithmetic
import UnitLedger.Proofs.Exact
set_option autoImplicit false

/-! # Rounding keeps the order of decimals

Rounding to `p` digits is rounding to an integer, in units of the last of them
(`toRat_rounded_eq`), so it depends on the values alone (`toRat_rounded_eq_toDigits`,
`rounded_congr`).  The unit grows with the size of the number, but a rounded number does not leave
the decade it comes from, so that rounding keeps the order of the values (`toRat_rounded_mono`).  A
product with a factor that is not negative therefore keeps the order of the numbers it is taken of,
also where it is not exact (`toRat_mul_mono`).
-/

namespace UnitLedger.Decimal

open Numeral Exact

/-! ## Rounding in units of the last digit -/

/-- A number in units of its `p`-th digit. -/
theorem mul_zpow_split (s e : Int) (n p : Nat) :
    (s : Rat) * (10 : Rat) ^ e = s * (10 : Rat) ^ ((p : Int) - n) * (10 : Rat) ^ (e + n - p) := by
  rw [mul_assoc, ← zpow_add₀ (by norm_num)]
  congr 2
  ring

private theorem toRat_rounded_natCast (s : Nat) (e : Int) {p : Nat} (hp : p ≠ 0) :
    (rounded s e p).toRat = halfAway (s * (10 : Rat) ^ ((p : Int) - digitCount s)) *
      (10 : Rat) ^ (e + digitCount s - p) := by
  rcases Nat.le_total (digitCount s) p with hfew | hmany
  · obtain ⟨k, hk⟩ := Int.le.dest (Int.ofNat_le.2 hfew)
    have hint : (s : Rat) * (10 : Rat) ^ ((p : Int) - digitCount s) = ((s * 10 ^ k : Int) : Rat) := by
      rw [← hk, add_sub_cancel_left, zpow_natCast]
      push_cast
      rfl
    have hsplit := mul_zpow_split s e (digitCount s) p
    rw [toRat_rounded hfew, hsplit, Int.cast_natCast, hint, halfAway_intCast]
  · obtain ⟨a, hrounded, hnear, htie⟩ := exists_rounded_eq_ofParts (s := s) e hp hmany
    rw [Int.natAbs_natCast] at hrounded hnear htie
    have hscaled : (s : Rat) * (10 : Rat) ^ ((p : Int) - digitCount s) =
        s / (10 ^ (digitCount s - p) : Nat) := by
      rw [← neg_sub, ← Nat.cast_sub hmany, zpow_neg, zpow_natCast, div_eq_mul_inv]
      push_cast
      rfl
    have hexp : e + (digitCount s - p : Nat) = e + digitCount s - p := by omega
    rw [hrounded, toRat_ofParts, hexp, hscaled, halfAway_div (a := a) (by positivity)]
    · exact_mod_cast hnear
    · exact_mod_cast htie

/-- Rounding to `p` digits is rounding half away in units of the `p`-th digit. -/
theorem toRat_rounded_eq (s e : Int) {p : Nat} (hp : p ≠ 0) :
    (rounded s e p).toRat = halfAway (s * (10 : Rat) ^ ((p : Int) - digitCount s.natAbs)) *
      (10 : Rat) ^ (e + digitCount s.natAbs - p) := by
  rcases Int.natAbs_eq s with hs | hs
  · have hround := toRat_rounded_natCast s.natAbs e hp
    rwa [← Int.cast_natCast (R := Rat) s.natAbs, ← hs] at hround
  · have hround := toRat_rounded_natCast s.natAbs e hp
    rw [← Int.cast_natCast (R := Rat) s.natAbs] at hround
    have hneg : ((s.natAbs : Int)) = -s := by omega
    rw [hneg, toRat_rounded_neg, Int.cast_neg, neg_mul, halfAway_neg, Int.cast_neg, neg_mul] at hround
    exact neg_injective hround

/-- The decade of a number. -/
theorem log_abs_mul_zpow {s : Int} (hs : s ≠ 0) (e : Int) :
    Int.log 10 |(s : Rat) * (10 : Rat) ^ e| = e + digitCount s.natAbs - 1 := by
  have habs : |(s : Rat) * (10 : Rat) ^ e| = ((s.natAbs : Int) : Rat) * (10 : Rat) ^ e := by
    rw [abs_mul, abs_intCast, abs_of_pos (show (0 : Rat) < 10 ^ e by positivity), Int.cast_natCast]
  have hpos : 0 < ((s.natAbs : Int) : Rat) * (10 : Rat) ^ e := by
    have := Int.natAbs_pos.2 hs
    positivity
  obtain ⟨hlow, hhigh⟩ := exists_decade hpos
  rw [Int.natAbs_natCast] at hlow hhigh
  rw [habs]
  apply Int.le_antisymm
  · rw [← Int.lt_add_one_iff, sub_add_cancel]
    exact (Int.lt_zpow_iff_log_lt (b := 10) (by decide) hpos).1 (by exact_mod_cast hhigh)
  · exact (Int.zpow_le_iff_le_log (b := 10) (by decide) hpos).1 (by exact_mod_cast hlow)

/-- Rounding to a number of digits is rounding of the value. -/
theorem toRat_rounded_eq_toDigits (s e : Int) {p : Nat} (hp : p ≠ 0) :
    (rounded s e p).toRat = toDigits (s * (10 : Rat) ^ e) p := by
  rw [toRat_rounded_eq s e hp, toDigits]
  by_cases hs : s = 0
  · rw [hs, Int.cast_zero, zero_mul, zero_mul, zero_div, ← Int.cast_zero, halfAway_intCast,
      Int.cast_zero, zero_mul, zero_mul]
  · have hunit : lastUnit (s * (10 : Rat) ^ e) p = (10 : Rat) ^ (e + digitCount s.natAbs - p) := by
      rw [lastUnit, log_abs_mul_zpow hs, sub_add_cancel]
    have hscaled := mul_zpow_split s e (digitCount s.natAbs) p
    rw [hunit]
    rw [hscaled, mul_div_cancel_right₀ _ (by positivity)]

/-- Rounding to a number of digits depends on the value only. -/
theorem rounded_congr {s t e f : Int} {p : Nat} (hp : p ≠ 0)
    (h : (s : Rat) * (10 : Rat) ^ e = t * (10 : Rat) ^ f) : rounded s e p = rounded t f p := by
  apply eq_of_toRat_precision
  · rw [toRat_rounded_eq_toDigits s e hp, toRat_rounded_eq_toDigits t f hp, h]
  · rw [rounded_precision, rounded_precision]

/-! ## Order -/

theorem toRat_rounded_nonneg {s : Int} (hs : 0 ≤ s) (e : Int) {p : Nat} (hp : p ≠ 0) :
    0 ≤ (rounded s e p).toRat := by
  have hcast : (0 : Rat) ≤ s := by exact_mod_cast hs
  have hround : 0 ≤ halfAway (s * (10 : Rat) ^ ((p : Int) - digitCount s.natAbs)) :=
    le_halfAway (by positivity)
  rw [toRat_rounded_eq s e hp]
  positivity

/-- Powers of ten are not crossed, in any unit. -/
theorem pow_le_halfAway_mul {x : Rat} {k : Nat} (h : (10 : Rat) ^ k ≤ x) (m : Int) :
    (10 : Rat) ^ (k + m) ≤ halfAway x * (10 : Rat) ^ m := by
  have hround : 10 ^ k ≤ halfAway x := le_halfAway (by exact_mod_cast h)
  rw [zpow_add₀ (by norm_num), zpow_natCast]
  exact mul_le_mul_of_nonneg_right (by exact_mod_cast hround) (by positivity)

theorem halfAway_mul_le_pow {x : Rat} {k : Nat} (h : x ≤ (10 : Rat) ^ k) (m : Int) :
    halfAway x * (10 : Rat) ^ m ≤ (10 : Rat) ^ (k + m) := by
  have hround : halfAway x ≤ 10 ^ k := halfAway_le (by exact_mod_cast h)
  rw [zpow_add₀ (by norm_num), zpow_natCast]
  exact mul_le_mul_of_nonneg_right (by exact_mod_cast hround) (by positivity)

/-- A rounded number stays in its decade, or becomes the power of ten above it. -/
theorem toRat_rounded_decade {s : Int} (hs : 0 < s) (e : Int) {p : Nat} (hp : p ≠ 0) :
    (10 : Rat) ^ (e + digitCount s.natAbs - 1) ≤ (rounded s e p).toRat ∧
      (rounded s e p).toRat ≤ (10 : Rat) ^ (e + digitCount s.natAbs) := by
  have hcast : (0 : Rat) < s := by exact_mod_cast hs
  obtain ⟨k, rfl⟩ := Nat.exists_eq_succ_of_ne_zero hp
  obtain ⟨hlow, hhigh⟩ := exists_decade (e := ((k + 1 : Nat) : Int) - digitCount s.natAbs)
    (by positivity)
  rw [sub_add_cancel] at hlow hhigh
  rw [Nat.cast_succ, add_sub_cancel_right, ← Nat.cast_succ, zpow_natCast] at hlow
  rw [zpow_natCast] at hhigh
  have hbottom := pow_le_halfAway_mul hlow (e + digitCount s.natAbs - (k + 1 : Nat))
  have htop := halfAway_mul_le_pow hhigh.le (e + digitCount s.natAbs - (k + 1 : Nat))
  rw [← toRat_rounded_eq s e hp] at hbottom htop
  have hunit : (k : Int) + (e + digitCount s.natAbs - (k + 1 : Nat)) =
      e + digitCount s.natAbs - 1 := by
    push_cast
    ring
  rw [hunit] at hbottom
  rw [add_sub_cancel] at htop
  exact ⟨hbottom, htop⟩

private theorem toRat_rounded_le_of_pos {s t e f : Int} {p : Nat} (hp : p ≠ 0) (hs : 0 < s)
    (h : (s : Rat) * (10 : Rat) ^ e ≤ t * (10 : Rat) ^ f) :
    (rounded s e p).toRat ≤ (rounded t f p).toRat := by
  have hcast : (0 : Rat) < s := by exact_mod_cast hs
  have hpos : 0 < (s : Rat) * (10 : Rat) ^ e := by positivity
  have ht : 0 < t := by
    exact_mod_cast pos_of_mul_pos_left (hpos.trans_le h) (by positivity)
  have hlow := (exists_decade hpos).1
  have hhigh := (exists_decade (hpos.trans_le h)).2
  have hdecades := (zpow_lt_zpow_iff_right₀ (by norm_num)).1 ((hlow.trans h).trans_lt hhigh)
  rcases Int.lt_or_eq_of_le (show e + digitCount s.natAbs ≤ f + digitCount t.natAbs by omega)
    with hless | hsame
  · -- a power of ten lies between the two
    calc (rounded s e p).toRat
        ≤ (10 : Rat) ^ (e + digitCount s.natAbs) := (toRat_rounded_decade hs e hp).2
      _ ≤ (10 : Rat) ^ (f + digitCount t.natAbs - 1) :=
          zpow_le_zpow_right₀ (by norm_num) (by omega)
      _ ≤ (rounded t f p).toRat := (toRat_rounded_decade ht f hp).1
  · have hunit : (0 : Rat) < 10 ^ (f + digitCount t.natAbs - p) := by positivity
    rw [mul_zpow_split s e (digitCount s.natAbs) p, mul_zpow_split t f (digitCount t.natAbs) p,
      hsame] at h
    rw [toRat_rounded_eq s e hp, toRat_rounded_eq t f hp, hsame]
    have hround := halfAway_mono (le_of_mul_le_mul_right h hunit)
    exact mul_le_mul_of_nonneg_right (Int.cast_le.2 hround) hunit.le

/-- Rounding to a number of digits keeps the order of the values. -/
theorem toRat_rounded_mono {s t e f : Int} {p : Nat} (hp : p ≠ 0)
    (h : (s : Rat) * (10 : Rat) ^ e ≤ t * (10 : Rat) ^ f) :
    (rounded s e p).toRat ≤ (rounded t f p).toRat := by
  rcases lt_or_ge 0 s with hs | hs
  · exact toRat_rounded_le_of_pos hp hs h
  · have hback := toRat_rounded_nonneg (neg_nonneg.2 hs) e hp
    rw [toRat_rounded_neg] at hback
    rcases le_or_gt 0 t with ht | ht
    · linarith [toRat_rounded_nonneg ht f hp]
    · have hreflected := toRat_rounded_le_of_pos hp (s := -t) (t := -s) (e := f) (f := e)
        (by omega) (by
          push_cast
          linarith)
      rw [toRat_rounded_neg, toRat_rounded_neg] at hreflected
      linarith

/-! ## Products -/

section Products

variable {x y z : Decimal} (hprec : x.precision = y.precision)
  (hp : max y.precision z.precision ≠ 0)

include hprec hp

/-- A product with a factor that is not negative keeps the order of what it is taken of. -/
theorem toRat_mul_mono (hz : 0 ≤ z.toRat) (h : x.toRat ≤ y.toRat) :
    (x.mul z).toRat ≤ (y.mul z).toRat := by
  have hproducts := mul_le_mul_of_nonneg_right h hz
  rw [toRat_mul_toRat, toRat_mul_toRat] at hproducts
  rw [Decimal.mul, Decimal.mul, hprec]
  exact toRat_rounded_mono hp hproducts

/-- The product of the opposite number is the opposite one. -/
theorem toRat_mul_of_eq_neg (h : x.toRat = -y.toRat) : (x.mul z).toRat = -(y.mul z).toRat := by
  have hproducts : x.toRat * z.toRat = -(y.toRat * z.toRat) := by rw [h, neg_mul]
  rw [toRat_mul_toRat, toRat_mul_toRat, ← neg_mul, ← Int.cast_neg] at hproducts
  rw [Decimal.mul, Decimal.mul, hprec, ← toRat_rounded_neg]
  exact congrArg toRat (rounded_congr hp hproducts)

end Products

end UnitLedger.Decimal
