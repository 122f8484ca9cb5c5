import UnitLedger.Proofs.Binary64.Interval
import Mathlib.Algebra.Order.Field.Power
import Mathlib.Tactic.FieldSimp
import Mathlib.Tactic.Linarith
import Mathlib.Tactic.NormNum
import Mathlib.Tactic.Positivity
import Mathlib.Tactic.Ring
set_option autoImplicit false

/-! # Rounding to doubles

A fraction below `overflowThreshold` is rounded to a finite double whose interval it lies in, and a
fraction from there on to infinity (`roundsTo_nearest`); the same goes for decimals
(`roundsTo_ofDecimal`).  Above `normalThreshold` the double has all its 53 bits, so that rounding
changes a small part of the number only (`Finite.Rounds.half_unit_le`).
-/

namespace UnitLedger.Binary64

open Numeral

/-! ## Rounding to an integer -/

/-- The rounded quotient is within one half, and at one half it is even. -/
theorem roundHalfEven_spec (num : Nat) {den : Nat} (hden : den ≠ 0) :
    (roundHalfEven num den : Rat) - 1 / 2 ≤ num / den ∧
      (num / den : Rat) ≤ roundHalfEven num den + 1 / 2 ∧
      (roundHalfEven num den % 2 = 0 ∨
        (roundHalfEven num den : Rat) - 1 / 2 < num / den ∧
          (num / den : Rat) < roundHalfEven num den + 1 / 2) := by
  have hden' : (0 : Rat) < den := Nat.cast_pos.2 (Nat.pos_of_ne_zero hden)
  have hsplit : (num / den : Rat) = (num / den : Nat) + (num % den : Nat) / den := by
    rw [div_eq_iff hden'.ne', add_mul, div_mul_cancel₀ _ hden'.ne']
    exact_mod_cast (Nat.div_add_mod' num den).symm
  have hrest : ((num % den : Nat) : Rat) / den < 1 := by
    rw [div_lt_one hden']
    exact_mod_cast Nat.mod_lt num (Nat.pos_of_ne_zero hden)
  have hnonneg : 0 ≤ ((num % den : Nat) : Rat) / den := by positivity
  have hcast : ((2 * (num % den) : Nat) : Rat) = 2 * (((num % den : Nat) : Rat) / den) * den := by
    rw [mul_assoc, div_mul_cancel₀ _ hden'.ne']
    push_cast
    rfl
  rw [hsplit]
  unfold roundHalfEven
  dsimp only
  generalize ((num % den : Nat) : Rat) / den = f at hrest hnonneg hcast
  split
  · next h =>
    have hlt : ((2 * (num % den) : Nat) : Rat) < den := by exact_mod_cast Nat.compare_eq_lt.1 h
    have hf : 2 * f < 1 := by
      rw [hcast] at hlt
      exact (mul_lt_iff_lt_one_left hden').1 hlt
    refine ⟨by linarith, by linarith, Or.inr ⟨by linarith, by linarith⟩⟩
  · next h =>
    have heq : ((2 * (num % den) : Nat) : Rat) = den := by exact_mod_cast Nat.compare_eq_eq.1 h
    have hf : 2 * f = 1 := by
      rw [hcast] at heq
      exact (mul_eq_right₀ hden'.ne').1 heq
    have heven : (num / den + num / den % 2) % 2 = 0 := by omega
    have hbit : num / den % 2 = 0 ∨ num / den % 2 = 1 := by omega
    rcases hbit with hbit | hbit <;> rw [hbit] at heven ⊢ <;> push_cast <;>
      exact ⟨by linarith, by linarith, Or.inl heven⟩
  · next h =>
    have hgt : (den : Rat) < ((2 * (num % den) : Nat) : Rat) := by
      exact_mod_cast Nat.compare_eq_gt.1 h
    have hf : 1 < 2 * f := by
      rw [hcast] at hgt
      exact (lt_mul_iff_one_lt_left hden').1 hgt
    push_cast
    exact ⟨by linarith, by linarith, Or.inr ⟨by linarith, by linarith⟩⟩

/-! ## The grid -/

theorem floorLog2_spec {num den : Nat} (hnum : num ≠ 0) (hden : den ≠ 0) :
    (2 : Rat) ^ floorLog2 num den ≤ num / den ∧
      (num / den : Rat) < 2 ^ (floorLog2 num den + 1) := by
  have hsize := size_of_lengths (l := floorLog2 num den) (by decide) (Nat.log2_self_le hnum)
    Nat.lt_log2_self (Nat.log2_self_le hden) Nat.lt_log2_self rfl
  exact_mod_cast hsize

/-- On its grid a number has 53 bits before the point, or fewer on the finest grid. -/
theorem gridExponent_spec {num den : Nat} (hnum : num ≠ 0) (hden : den ≠ 0) :
    minExponent ≤ gridExponent num den ∧
      (num / den : Rat) < 2 ^ 53 * 2 ^ gridExponent num den ∧
      ((2 : Rat) ^ 52 * 2 ^ gridExponent num den ≤ num / den ∨
        gridExponent num den = minExponent ∧ (num / den : Rat) < 2 ^ (-1022 : Int)) := by
  obtain ⟨hlow, hhigh⟩ := floorLog2_spec hnum hden
  have hpow : ∀ (k : Nat) (q : Int), (2 : Rat) ^ k * 2 ^ q = 2 ^ (k + q) := by
    intro k q
    rw [zpow_add₀ (by norm_num), zpow_natCast]
  have hmono : ∀ {a b : Int}, a ≤ b → (2 : Rat) ^ a ≤ 2 ^ b := fun h =>
    zpow_le_zpow_right₀ (by norm_num) h
  unfold gridExponent
  rw [if_neg hnum, hpow, hpow]
  generalize floorLog2 num den = l at hlow hhigh
  refine ⟨le_max_left _ _, hhigh.trans_le (hmono ?_), ?_⟩
  · have := le_max_right minExponent (l - 52)
    omega
  · unfold minExponent
    rcases le_total (-1074) (l - 52) with h | h
    · left
      rw [max_eq_right h]
      have hexp : ((52 : Nat) : Int) + (l - 52) = l := by omega
      rwa [hexp]
    · rcases eq_or_lt_of_le h with heq | hlt
      · left
        rw [max_eq_left h]
        have hexp : ((52 : Nat) : Int) + -1074 = l := by omega
        rwa [hexp]
      · right
        exact ⟨max_eq_left h, hhigh.trans_le (hmono (by omega))⟩

/-! ## The nearest double -/

/-- The ends belong to the interval when the significand is even. -/
theorem contains_of_ends {x : Finite} {r : Rat}
    (hlow : (x.interval.low / x.interval.den : Rat) ≤ r)
    (hhigh : r ≤ x.interval.high / x.interval.den)
    (h : x.significand % 2 = 0 ∨ (x.interval.low / x.interval.den : Rat) < r ∧
      r < x.interval.high / x.interval.den) : x.interval.Contains r := by
  rcases h with heven | ⟨hlt, hgt⟩
  · have hclosed : x.interval.closed = true := decide_eq_true heven
    rw [Interval.Contains, if_pos hclosed]
    exact ⟨hlow, hhigh⟩
  · exact Interval.contains_of_lt hlt hgt

/-- `num / den` is rounded on a grid as its quotient by the unit of the grid. -/
theorem onGrid_spec (num : Nat) {den : Nat} (hden : den ≠ 0) (q : Int) :
    ((onGrid num den q : Rat) - 1 / 2) * 2 ^ q ≤ num / den ∧
      (num / den : Rat) ≤ (onGrid num den q + 1 / 2) * 2 ^ q ∧
      (onGrid num den q % 2 = 0 ∨
        ((onGrid num den q : Rat) - 1 / 2) * 2 ^ q < num / den ∧
          (num / den : Rat) < (onGrid num den q + 1 / 2) * 2 ^ q) := by
  have hunit : (0 : Rat) < 2 ^ q := by positivity
  have hspec := roundHalfEven_spec (num * 2 ^ (-q).toNat)
    (Nat.mul_ne_zero hden (show 2 ^ q.toNat ≠ 0 by positivity))
  rw [scaled_div (by decide), Nat.cast_ofNat, le_div_iff₀ hunit, div_le_iff₀ hunit,
    lt_div_iff₀ hunit, div_lt_iff₀ hunit] at hspec
  exact hspec

theorem onGrid_le {num den b : Nat} (hden : den ≠ 0) {q : Int}
    (h : (num / den : Rat) < b * 2 ^ q) : onGrid num den q ≤ b := by
  have hunit : (0 : Rat) < 2 ^ q := by positivity
  have hlt := lt_of_mul_lt_mul_right ((onGrid_spec num hden q).1.trans_lt h) hunit.le
  have hlt' : (onGrid num den q : Rat) < ((b + 1 : Nat) : Rat) := by
    push_cast
    linarith
  exact Nat.le_of_lt_succ (Nat.cast_lt.1 hlt')

theorem le_onGrid {num den b : Nat} (hden : den ≠ 0) {q : Int}
    (h : (b : Rat) * 2 ^ q ≤ num / den) : b ≤ onGrid num den q := by
  have hunit : (0 : Rat) < 2 ^ q := by positivity
  have hle := le_of_mul_le_mul_right (h.trans (onGrid_spec num hden q).2.1) hunit
  have hlt : (b : Rat) < ((onGrid num den q + 1 : Nat) : Rat) := by
    push_cast
    linarith
  exact Nat.le_of_lt_succ (Nat.cast_lt.1 hlt)

/-- A number that is rounded to `x` on its grid lies in the interval of `x`, unless `x` is the
power of two above it. -/
theorem contains_of_rounded {x : Finite} (h : x.significand ≠ 0) {r : Rat}
    (hlow : ((x.significand : Rat) - 1 / 2) * 2 ^ x.exponent ≤ r)
    (hhigh : r ≤ (x.significand + 1 / 2) * 2 ^ x.exponent)
    (htie : x.significand % 2 = 0 ∨ ((x.significand : Rat) - 1 / 2) * 2 ^ x.exponent < r ∧
      r < (x.significand + 1 / 2) * 2 ^ x.exponent)
    (hpow : x.significand = 2 ^ 52 → minExponent < x.exponent → x.magnitude ≤ r) :
    x.interval.Contains r := by
  have hunit : (0 : Rat) < 2 ^ x.exponent := by positivity
  have htop : (x.interval.high / x.interval.den : Rat) =
      (x.significand + 1 / 2) * 2 ^ x.exponent := by
    rw [Finite.interval_high, Finite.magnitude]
    ring
  have hbottom := Finite.interval_low h
  split at hbottom
  · next hnarrow =>
    have hle := hpow hnarrow.1 hnarrow.2
    refine contains_of_ends (by linarith) (htop ▸ hhigh) ?_
    exact htie.imp_right fun hlt => ⟨by linarith, htop ▸ hlt.2⟩
  · have hends : (x.interval.low / x.interval.den : Rat) =
        ((x.significand : Rat) - 1 / 2) * 2 ^ x.exponent := by
      rw [hbottom, Finite.magnitude]
      ring
    rw [← hends] at hlow htie
    rw [← htop] at hhigh htie
    exact contains_of_ends hlow hhigh htie

/-- A number just below a power of two is rounded up to it. -/
theorem contains_of_rounded_up {x : Finite} (h : x.significand = 2 ^ 52) {r : Rat}
    (hlow : x.magnitude - 2 ^ x.exponent / 4 ≤ r) (hhigh : r < x.magnitude) :
    x.interval.Contains r := by
  have hunit : (0 : Rat) < 2 ^ x.exponent := by positivity
  have hne : x.significand ≠ 0 := by omega
  refine contains_of_ends ?_ ?_ (Or.inl (by omega))
  · rw [Finite.interval_low hne]
    split <;> linarith
  · rw [Finite.interval_high]
    linarith

/-! ## Rounding to a finite double -/

/-- Half a unit of the last bit above the largest double: from here on numbers are rounded to
infinity. -/
def overflowThreshold : Rat := (2 ^ 54 - 1) * (2 : Rat) ^ (maxExponent - 1)

/-- Half a unit of the last bit below the least double of 53 bits: from here on rounding keeps them
all. -/
def normalThreshold : Rat := (2 ^ 53 - 1) * (2 : Rat) ^ (minExponent - 1)

/-- The number `r`, which is not negative, is rounded to the magnitude of `x`, a tie going to the
even significand. -/
def Finite.Rounds (x : Finite) (r : Rat) : Prop :=
  if x.significand = 0 then r ≤ (2 : Rat) ^ minExponent / 2 else x.interval.Contains r

theorem two_zpow_succ (q : Int) : (2 : Rat) ^ (q + 1) = 2 * 2 ^ q := by
  rw [zpow_add_one₀ (by norm_num), mul_comm]

theorem two_zpow_eq (q : Int) : (2 : Rat) ^ q = 2 * 2 ^ (q - 1) := by
  rw [← two_zpow_succ, sub_add_cancel]

theorem two_zpow_le {q p : Int} (h : q ≤ p) : (2 : Rat) ^ q ≤ 2 ^ p :=
  zpow_le_zpow_right₀ (by norm_num) h

namespace Finite.Rounds

variable {x : Finite} {r : Rat}

theorem contains (h : x.Rounds r) (hne : x.significand ≠ 0) : x.interval.Contains r := by
  rwa [Rounds, if_neg hne] at h

/-- Rounding moves a number by half a unit of the last bit at most. -/
theorem abs_sub_le (h : x.Rounds r) (hr : 0 ≤ r) :
    |r - x.magnitude| ≤ (2 : Rat) ^ x.exponent / 2 := by
  by_cases hzero : x.significand = 0
  · have hexp : x.exponent = minExponent := x.canonical.2.2.2.resolve_left (by omega)
    rw [Rounds, if_pos hzero] at h
    rwa [magnitude, hzero, hexp, Nat.cast_zero, zero_mul, sub_zero, abs_of_nonneg hr]
  · exact abs_sub_magnitude_le hzero (h.contains hzero)

/-- A number that is rounded to a double lies below the threshold.  A tie with infinity goes to
infinity, because the significand of the largest double is odd. -/
theorem lt_overflowThreshold (h : x.Rounds r) (hr : 0 ≤ r) : r < overflowThreshold := by
  have hnear := (abs_le.1 (h.abs_sub_le hr)).2
  have hunit : (0 : Rat) < 2 ^ x.exponent := by positivity
  have hmost : (x.significand : Rat) + 1 ≤ 2 ^ 53 := by exact_mod_cast x.canonical.1
  have hmul := mul_le_mul_of_nonneg_right hmost hunit.le
  unfold magnitude at hnear
  unfold overflowThreshold
  rcases Int.lt_or_eq_of_le x.canonical.2.2.1 with hlt | hlast
  · have hle := two_zpow_le (Int.le_sub_one_of_lt hlt)
    have hpos : (0 : Rat) < 2 ^ (maxExponent - 1) := by positivity
    linarith
  have hstep : (2 : Rat) ^ x.exponent = 2 * 2 ^ (maxExponent - 1) := by
    rw [hlast, two_zpow_eq]
  rw [hstep] at hnear hmul hunit
  rcases Nat.lt_or_eq_of_le (Nat.succ_le_of_lt x.canonical.1) with hless | hodd
  · have hmost' : (x.significand : Rat) + 2 ≤ 2 ^ 53 := by exact_mod_cast hless
    have hmul' := mul_le_mul_of_nonneg_right hmost' hunit.le
    linarith
  · have hopen : x.interval.closed = false := decide_eq_false (by omega)
    have hcontains := h.contains (by omega)
    rw [Interval.Contains, hopen, if_neg Bool.false_ne_true, interval_high, magnitude, hstep]
      at hcontains
    linarith [hcontains.2]

/-- From the threshold on half a unit of the last bit is a small part of the number. -/
theorem half_unit_le (h : x.Rounds r) (hr : normalThreshold ≤ r) :
    (2 : Rat) ^ x.exponent / 2 ≤ r / (2 ^ 53 - 1) := by
  have hunit : (0 : Rat) < 2 ^ x.exponent := by positivity
  have hpos : (0 : Rat) < 2 ^ (minExponent - 1) := by positivity
  unfold normalThreshold at hr
  rw [le_div_iff₀ (by norm_num)]
  rcases x.canonical.2.2.2 with hfull | hexp
  · have hnear := (abs_le.1 (h.abs_sub_le (by linarith))).1
    have hcast : (2 : Rat) ^ 52 ≤ x.significand := by exact_mod_cast hfull
    have hmul := mul_le_mul_of_nonneg_right hcast hunit.le
    unfold magnitude at hnear
    linarith
  · rw [hexp, two_zpow_eq]
    linarith

/-- What is rounded to 53 bits reaches the threshold. -/
theorem normalThreshold_le (h : x.Rounds r) (hr : 0 ≤ r) (hbits : 2 ^ 52 ≤ x.significand) :
    normalThreshold ≤ r := by
  have hnear := (abs_le.1 (h.abs_sub_le hr)).1
  have hcast : (2 : Rat) ^ 52 ≤ x.significand := by exact_mod_cast hbits
  have hmul := mul_le_mul_of_nonneg_right hcast (show 0 ≤ (2 : Rat) ^ x.exponent by positivity)
  have hfinest := two_zpow_le x.canonical.2.1
  unfold magnitude at hnear
  unfold normalThreshold
  rw [two_zpow_eq minExponent] at hfinest
  linarith

/-- Above the threshold rounding keeps all bits. -/
theorem le_significand (h : x.Rounds r) (hr : normalThreshold < r) : 2 ^ 52 ≤ x.significand := by
  have hpos : (0 : Rat) < 2 ^ (minExponent - 1) := by positivity
  unfold normalThreshold at hr
  by_contra hfew
  have hexp : x.exponent = minExponent := x.canonical.2.2.2.resolve_left hfew
  have hcast : (x.significand : Rat) + 1 ≤ 2 ^ 52 := by exact_mod_cast Nat.lt_of_not_le hfew
  have hnear := (abs_le.1 (h.abs_sub_le (by linarith))).2
  have hmul := mul_le_mul_of_nonneg_right hcast (show 0 ≤ (2 : Rat) ^ x.exponent by positivity)
  unfold magnitude at hnear
  rw [hexp, two_zpow_eq minExponent] at hnear hmul
  linarith

end Finite.Rounds

/-! ## The nearest double -/

/-- What is rounded up to a bit more than 53 is rounded to the power of two. -/
theorem rounds_of_carry {num den : Nat} (hden : den ≠ 0) {x : Finite} {q : Int}
    (hcarry : onGrid num den q = 2 ^ 53) (hbits : (num / den : Rat) < 2 ^ 53 * 2 ^ q)
    (hsig : x.significand = 2 ^ 52) (hexp : x.exponent = q + 1) : x.Rounds (num / den) := by
  have hlow := (onGrid_spec num hden q).1
  rw [hcarry] at hlow
  push_cast at hlow
  rw [Finite.Rounds, if_neg (by omega)]
  apply contains_of_rounded_up hsig <;> rw [Finite.magnitude, hsig, hexp, two_zpow_succ] <;>
    push_cast <;> linarith

/-- What is rounded on its grid to 53 bits or fewer is rounded to the double of these bits. -/
theorem rounds_of_onGrid {num den : Nat} (hnum : num ≠ 0) (hden : den ≠ 0) {x : Finite}
    (hsig : x.significand = onGrid num den (gridExponent num den))
    (hexp : x.exponent = gridExponent num den) : x.Rounds (num / den) := by
  obtain ⟨hlow, hhigh, htie⟩ := onGrid_spec num hden (gridExponent num den)
  rw [← hsig, ← hexp] at hlow hhigh htie
  unfold Finite.Rounds
  split
  · next hzero =>
    have hleast : x.exponent = minExponent := x.canonical.2.2.2.resolve_left (by omega)
    rw [hzero, hleast, Nat.cast_zero] at hhigh
    linarith
  · next hne =>
    refine contains_of_rounded hne hlow hhigh htie fun hpow hlt => ?_
    have hle := (gridExponent_spec hnum hden).2.2.resolve_right fun h =>
      (ne_of_gt hlt) (hexp.trans h.1)
    rw [Finite.magnitude, hpow, hexp]
    exact_mod_cast hle

/-- The doubles reach as far as the fractions below the threshold need. -/
theorem exponent_le_iff {num den : Nat} (hnum : num ≠ 0) (hden : den ≠ 0) :
    (if onGrid num den (gridExponent num den) = 2 ^ 53 then gridExponent num den + 1
      else gridExponent num den) ≤ maxExponent ↔ (num / den : Rat) < overflowThreshold := by
  obtain ⟨-, hbits, hfull⟩ := gridExponent_spec hnum hden
  obtain ⟨hlow, hhigh, htie⟩ := onGrid_spec num hden (gridExponent num den)
  have hm : onGrid num den (gridExponent num den) ≤ 2 ^ 53 :=
    onGrid_le hden (by exact_mod_cast hbits)
  have hunit : (0 : Rat) < 2 ^ (maxExponent - 1) := by positivity
  unfold overflowThreshold
  generalize gridExponent num den = q at *
  generalize onGrid num den q = m at *
  generalize (num / den : Rat) = r at *
  rcases lt_trichotomy q maxExponent with hlt | rfl | hgt
  · refine iff_of_true (by split <;> omega) ?_
    have hle := two_zpow_le (Int.le_sub_one_of_lt hlt)
    linarith
  · -- on the last grid only a carry leads out of the doubles
    rw [two_zpow_eq maxExponent] at hlow hhigh htie
    split
    · next hcarry =>
      rw [hcarry] at hlow
      push_cast at hlow
      exact iff_of_false (by omega) (not_lt.2 (by linarith))
    · next hcarry =>
      refine iff_of_true (by omega) ?_
      rcases htie with heven | ⟨-, hlt⟩
      · have hfew : (m : Rat) + 2 ≤ 2 ^ 53 := by exact_mod_cast show m + 2 ≤ 2 ^ 53 by omega
        have hmul := mul_le_mul_of_nonneg_right hfew hunit.le
        linarith
      · have hfew : (m : Rat) + 1 ≤ 2 ^ 53 := by exact_mod_cast show m + 1 ≤ 2 ^ 53 by omega
        have hmul := mul_le_mul_of_nonneg_right hfew hunit.le
        linarith
  · refine iff_of_false (by split <;> omega) (not_lt.2 ?_)
    have hle := two_zpow_le (Int.add_one_le_of_lt hgt)
    rw [two_zpow_succ, two_zpow_eq maxExponent] at hle
    have hcoarse : q ≠ minExponent := by
      unfold maxExponent at hgt
      unfold minExponent
      omega
    have hlarge := hfull.resolve_right fun h => hcoarse h.1
    linarith

theorem onGrid_zero {den : Nat} (hden : den ≠ 0) (q : Int) : onGrid 0 den q = 0 := by
  have hunit : (0 : Rat) < 2 ^ q := by positivity
  have hlow := (onGrid_spec 0 hden q).1
  rw [Nat.cast_zero, zero_div, ← zero_mul ((2 : Rat) ^ q)] at hlow
  have hlt : (onGrid 0 den q : Rat) < (1 : Nat) := by
    have := le_of_mul_le_mul_right hlow hunit
    rw [Nat.cast_one]
    linarith
  exact Nat.lt_one_iff.1 (Nat.cast_lt.1 hlt)

theorem nearest_zero {den : Nat} (hden : den ≠ 0) (negative : Bool) :
    nearest negative 0 den = .finite (zero negative) := by
  have hgrid : gridExponent 0 den = minExponent := if_pos rfl
  unfold nearest
  dsimp only
  rw [hgrid, onGrid_zero hden, if_neg (by decide)]
  exact dif_pos (zero negative).canonical

/-- The double `b` is what the number `r`, with its sign apart, is rounded to: a finite double if
`r` is below the threshold, and infinity from there on. -/
def RoundsTo (negative : Bool) (r : Rat) (b : Binary64) : Prop :=
  if r < overflowThreshold then ∃ y : Finite, b = .finite y ∧ y.negative = negative ∧ y.Rounds r
  else b = .infinite negative

theorem overflowThreshold_pos : 0 < overflowThreshold := by
  unfold overflowThreshold
  positivity

namespace RoundsTo

variable {negative : Bool} {r : Rat} {b : Binary64}

theorem exists_finite (h : RoundsTo negative r b) (hr : r < overflowThreshold) :
    ∃ y : Finite, b = .finite y ∧ y.negative = negative ∧ y.Rounds r := by
  rwa [RoundsTo, if_pos hr] at h

theorem eq_infinite (h : RoundsTo negative r b) (hr : overflowThreshold ≤ r) :
    b = .infinite negative := by
  rwa [RoundsTo, if_neg (not_lt.2 hr)] at h

theorem isFinite_iff (h : RoundsTo negative r b) : b.isFinite = true ↔ r < overflowThreshold := by
  rcases lt_or_ge r overflowThreshold with hlt | hge
  · obtain ⟨y, rfl, -⟩ := h.exists_finite hlt
    exact iff_of_true rfl hlt
  · rw [h.eq_infinite hge]
    exact iff_of_false Bool.false_ne_true (not_lt.2 hge)

end RoundsTo

theorem Finite.Rounds.roundsTo {y : Finite} {r : Rat} (h : y.Rounds r) (hr : 0 ≤ r) :
    RoundsTo y.negative r (.finite y) := by
  rw [RoundsTo, if_pos (h.lt_overflowThreshold hr)]
  exact ⟨y, rfl, rfl, h⟩

theorem roundsTo_infinite {r : Rat} (hr : overflowThreshold ≤ r) (negative : Bool) :
    RoundsTo negative r (.infinite negative) := by
  rw [RoundsTo, if_neg (not_lt.2 hr)]

theorem roundsTo_zero {r : Rat} (hr : 0 ≤ r) (hsmall : r ≤ (2 : Rat) ^ minExponent / 2)
    (negative : Bool) : RoundsTo negative r (.finite (zero negative)) :=
  Finite.Rounds.roundsTo (y := zero negative) (show ite _ _ _ from (if_pos rfl).mpr hsmall) hr

/-- A fraction is rounded to the nearest double. -/
theorem roundsTo_nearest (num : Nat) {den : Nat} (hden : den ≠ 0) (negative : Bool) :
    RoundsTo negative (num / den) (nearest negative num den) := by
  by_cases hnum : num = 0
  · rw [hnum, Nat.cast_zero, zero_div, nearest_zero hden]
    exact roundsTo_zero le_rfl (by positivity) negative
  obtain ⟨hmin, hbits, hfull⟩ := gridExponent_spec hnum hden
  have hnonneg : (0 : Rat) ≤ num / den := by positivity
  have hiff := exponent_le_iff hnum hden
  have hm : onGrid num den (gridExponent num den) ≤ 2 ^ 53 :=
    onGrid_le hden (by exact_mod_cast hbits)
  have hm52 : (2 : Rat) ^ 52 * 2 ^ gridExponent num den ≤ num / den →
      2 ^ 52 ≤ onGrid num den (gridExponent num den) := fun hle =>
    le_onGrid hden (by exact_mod_cast hle)
  unfold nearest
  dsimp only
  by_cases hcarry : onGrid num den (gridExponent num den) = 2 ^ 53
  · rw [if_pos hcarry] at hiff ⊢
    dsimp only
    rcases lt_or_ge (num / den : Rat) overflowThreshold with hlt | hge
    · have hcanonical : IsCanonical (2 ^ 52) (gridExponent num den + 1) :=
        ⟨by decide, by omega, hiff.2 hlt, Or.inl (Nat.le_refl _)⟩
      rw [dif_pos hcanonical]
      exact (rounds_of_carry hden hcarry hbits rfl rfl).roundsTo hnonneg
    · rw [dif_neg fun h => not_lt.2 hge (hiff.1 h.2.2.1)]
      exact roundsTo_infinite hge negative
  · rw [if_neg hcarry] at hiff ⊢
    dsimp only
    rcases lt_or_ge (num / den : Rat) overflowThreshold with hlt | hge
    · have hcanonical : IsCanonical (onGrid num den (gridExponent num den))
          (gridExponent num den) :=
        ⟨by omega, hmin, hiff.2 hlt, hfull.imp hm52 And.left⟩
      rw [dif_pos hcanonical]
      exact (rounds_of_onGrid hnum hden rfl rfl).roundsTo hnonneg
    · rw [dif_neg fun h => not_lt.2 hge (hiff.1 h.2.2.1)]
      exact roundsTo_infinite hge negative

/-- The product of two doubles is rounded to the nearest double. -/
theorem roundsTo_mul (x y : Finite) :
    RoundsTo (x.negative ^^ y.negative) (x.magnitude * y.magnitude)
      ((Binary64.finite x).mul (.finite y)) := by
  have hproduct : x.magnitude * y.magnitude =
      ((x.significand * y.significand * 2 ^ (x.exponent + y.exponent).toNat : Nat) : Rat) /
        ((2 ^ (-(x.exponent + y.exponent)).toNat : Nat) : Rat) := by
    have hpow := zpow_eq_div_pow_toNat 2 (x.exponent + y.exponent)
    rw [zpow_add₀ (by norm_num)] at hpow
    push_cast
    rw [mul_div_assoc, ← hpow, Finite.magnitude, Finite.magnitude]
    ring
  rw [hproduct]
  exact roundsTo_nearest _ (by positivity) _

/-! ## Decimals -/

/-- The sizes of the doubles of full precision, short of the last binary decade. -/
def InRange (r : Rat) : Prop := (2 : Rat) ^ (-1022 : Int) ≤ r ∧ r < 2 ^ 1023

/-- What comes within half of a part in `2 ^ 53` of the least double of 53 bits is rounded to one of
them. -/
theorem normalThreshold_lt {r : Rat} (h : (2 : Rat) ^ (-1022 : Int) * (1 - 1 / 2 ^ 54) ≤ r) :
    normalThreshold < r := by
  have hleast : (2 : Rat) ^ (-1022 : Int) = 2 ^ 53 * 2 ^ (minExponent - 1) := by
    rw [← zpow_natCast, ← zpow_add₀ (by norm_num)]
    rfl
  have hunit : (0 : Rat) < 2 ^ (minExponent - 1) := by positivity
  rw [hleast] at h
  unfold normalThreshold
  linarith only [h, hunit]

theorem two_pow_lt_overflowThreshold : 3 / 2 * (2 : Rat) ^ 1023 < overflowThreshold := by
  have hmost : (2 : Rat) ^ 1023 = 2 ^ 53 * 2 ^ (maxExponent - 1) := by
    rw [← zpow_natCast, ← zpow_natCast, ← zpow_add₀ (by norm_num)]
    rfl
  have hunit : (0 : Rat) < 2 ^ (maxExponent - 1) := by positivity
  rw [hmost]
  unfold overflowThreshold
  linarith only [hunit]

/-- Between the two thresholds numbers are rounded to doubles of 53 bits. -/
theorem InRange.thresholds {r : Rat} (h : InRange r) :
    normalThreshold < r ∧ r < overflowThreshold := by
  constructor
  · refine normalThreshold_lt (le_trans ?_ h.1)
    exact mul_le_of_le_one_right (by positivity) (by norm_num)
  · refine (h.2.trans_le ?_).trans two_pow_lt_overflowThreshold
    exact le_mul_of_one_le_left (by positivity) (by norm_num)

/-- Amounts of any use are in range. -/
theorem inRange_of_bounds {r : Rat} (hlow : (10 : Rat) ^ (-60 : Int) ≤ r)
    (hhigh : r ≤ 10 ^ 60) : InRange r := by
  have hpow : (10 : Rat) ^ 60 < 2 ^ 200 := by norm_num
  constructor
  · refine le_trans ?_ hlow
    rw [zpow_neg, zpow_neg]
    refine inv_anti₀ (by positivity) (le_trans (b := (2 : Rat) ^ 200) ?_ ?_)
    · exact_mod_cast hpow.le
    · exact_mod_cast pow_le_pow_right₀ (show (1 : Rat) ≤ 2 by norm_num) (show 200 ≤ 1022 by decide)
  · calc r ≤ 10 ^ 60 := hhigh
      _ < 2 ^ 200 := hpow
      _ ≤ 2 ^ 1023 := pow_le_pow_right₀ (by norm_num) (by decide)

theorem pow_two_lt_pow_ten : (2 : Rat) ^ 1023 < 10 ^ 308 :=
  calc (2 : Rat) ^ 1023 = (2 ^ 93) ^ 11 := pow_mul 2 93 11
    _ < (10 ^ 28) ^ 11 := pow_lt_pow_left₀ (by norm_num) (by norm_num) (by decide)
    _ = 10 ^ 308 := (pow_mul 10 28 11).symm

/-- The powers of ten beyond the two ends of the doubles. -/
theorem pow_ten_thresholds :
    (10 : Rat) ^ (-324 : Int) ≤ 2 ^ minExponent / 2 ∧ overflowThreshold ≤ 10 ^ (309 : Int) := by
  constructor
  · have hunit : (2 : Rat) ^ minExponent / 2 = ((2 : Rat) ^ 1023 * 2 ^ 52)⁻¹ := by
      rw [two_zpow_eq, mul_div_cancel_left₀ _ (by norm_num), ← pow_add, ← zpow_natCast, ← zpow_neg]
      rfl
    have hsplit : (10 : Rat) ^ (-324 : Int) = ((10 : Rat) ^ 308 * 10 ^ 16)⁻¹ := by
      rw [← pow_add, zpow_neg]
      rfl
    rw [hunit, hsplit]
    exact inv_anti₀ (by positivity)
      (mul_le_mul pow_two_lt_pow_ten.le (by norm_num) (by positivity) (by positivity))
  · have hmost : (2 : Rat) ^ 54 * 2 ^ (maxExponent - 1) = 2 * 2 ^ 1023 := by
      rw [← zpow_natCast, ← zpow_add₀ (by norm_num), ← pow_succ', ← zpow_natCast]
      rfl
    have hsplit : (10 : Rat) ^ (309 : Int) = 10 * 10 ^ 308 := by
      rw [show (309 : Int) = ((308 + 1 : Nat) : Int) from rfl, zpow_natCast, pow_succ']
    have hunit : (0 : Rat) < 2 ^ (maxExponent - 1) := by positivity
    have hlt := pow_two_lt_pow_ten
    unfold overflowThreshold
    rw [hsplit]
    generalize (2 : Rat) ^ 1023 = a at hmost hlt
    generalize (10 : Rat) ^ 308 = t at hlt ⊢
    generalize (2 : Rat) ^ (maxExponent - 1) = u at hmost hunit ⊢
    linarith

/-- A decimal is rounded to the nearest double. -/
theorem roundsTo_ofDecimal (negative : Bool) (magnitude : Nat) (exponent : Int) :
    RoundsTo negative (magnitude * (10 : Rat) ^ exponent)
      (ofDecimal negative magnitude exponent) := by
  unfold ofDecimal
  dsimp only
  by_cases hzero : magnitude = 0
  · rw [if_pos (Or.inl hzero), hzero, Nat.cast_zero, zero_mul]
    exact roundsTo_zero le_rfl (by positivity) negative
  have hpos : 0 < (magnitude : Rat) * (10 : Rat) ^ exponent := by positivity
  obtain ⟨hlow, hhigh⟩ := Decimal.exists_decade (s := magnitude) (e := exponent) hpos
  rw [Int.natAbs_natCast, Int.cast_natCast] at hlow hhigh
  obtain ⟨htiny, hlarge⟩ := pow_ten_thresholds
  have hpow : ∀ {a b : Int}, a ≤ b → (10 : Rat) ^ a ≤ 10 ^ b := fun h =>
    zpow_le_zpow_right₀ (by norm_num) h
  split
  · next hsmall =>
    have hle := hpow (hsmall.resolve_left hzero)
    exact roundsTo_zero hpos.le (hhigh.le.trans (hle.trans htiny)) negative
  · split
    · next hbig =>
      have hle := hpow (Int.le_sub_one_of_lt hbig)
      exact roundsTo_infinite (hlarge.trans (hle.trans hlow)) negative
    · have hvalue : (magnitude * (10 : Rat) ^ exponent : Rat) =
          ((magnitude * 10 ^ exponent.toNat : Nat) / (10 ^ (-exponent).toNat : Nat) : Rat) := by
        rw [zpow_eq_div_pow_toNat]
        push_cast
        ring
      rw [hvalue]
      exact roundsTo_nearest _ (by positivity) negative

/-- A decimal in range is rounded to a double of 53 bits, whose interval it lies in. -/
theorem exists_ofDecimal {magnitude : Nat} {exponent : Int}
    (h : InRange (magnitude * (10 : Rat) ^ exponent)) (negative : Bool) :
    ∃ y : Finite, ofDecimal negative magnitude exponent = .finite y ∧ y.negative = negative ∧
      2 ^ 52 ≤ y.significand ∧ y.interval.Contains (magnitude * (10 : Rat) ^ exponent) := by
  obtain ⟨y, hy, hsign, hrounds⟩ :=
    (roundsTo_ofDecimal negative magnitude exponent).exists_finite h.thresholds.2
  have hbits := hrounds.le_significand h.thresholds.1
  exact ⟨y, hy, hsign, hbits, hrounds.contains (by omega)⟩

theorem ofDecimal_zero (negative : Bool) (exponent : Int) :
    ofDecimal negative 0 exponent = .finite (zero negative) := by
  unfold ofDecimal
  rw [if_pos (Or.inl rfl)]

end UnitLedger.Binary64
