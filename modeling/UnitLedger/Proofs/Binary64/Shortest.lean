import UnitLedger.Exact
import UnitLedger.Proofs.Binary64.Interval
import Mathlib.Algebra.Order.Field.Power
import Mathlib.Tactic.Linarith
import Mathlib.Tactic.NormNum
import Mathlib.Tactic.Positivity
import Mathlib.Tactic.Ring
set_option autoImplicit false

/-! # What is written for a double

The decimal that is written lies in the interval of the double and has at most seventeen digits
(`contains_written`, `keeps_written`), and no coarser grid has a number there
(`exists_written_grid`).  A decimal of at most fifteen digits that rounds to a double of full
precision is itself the one that is written (`written_eq_of_keeps`).
-/

namespace UnitLedger.Binary64

open Numeral Decimal

/-- The first of the naturals below `n` that gives a result. -/
theorem exists_of_findSome?_range {α : Type} {f : Nat → Option α} {n : Nat} {b : α}
    (h : (List.range n).findSome? f = some b) :
    ∃ i, i < n ∧ f i = some b ∧ ∀ j, j < i → f j = none := by
  induction n with
  | zero => simp at h
  | succ n ih =>
    rw [List.range_succ, List.findSome?_append] at h
    cases hn : (List.range n).findSome? f with
    | some c =>
      rw [hn, Option.some_or] at h
      obtain ⟨i, hi, hfi, hfirst⟩ := ih (hn.trans h)
      exact ⟨i, Nat.lt_succ_of_lt hi, hfi, hfirst⟩
    | none =>
      rw [hn, Option.none_or, List.findSome?_singleton] at h
      rw [List.findSome?_eq_none_iff] at hn
      exact ⟨n, Nat.lt_succ_self n, h, fun j hj => hn j (List.mem_range.2 hj)⟩

namespace Finite

/-- Zeros at the end are moved into the exponent. -/
theorem Digits.strip_value (d : Digits) :
    (d.strip.digits : Rat) * (10 : Rat) ^ d.strip.exponent =
      d.digits * (10 : Rat) ^ d.exponent := by
  have hsplit := Nat.div_mul_cancel (pow_trailingZeros_dvd d.digits)
  unfold strip
  dsimp only
  rw [Rat.zpow_add (by decide), Rat.zpow_natCast]
  conv => rhs; rw [← hsplit]
  push_cast
  ring

/-- The search finds a decimal of `n + 1` digits at most, less than a unit of its last place below
the magnitude, and there is none on a coarser grid. -/
theorem exists_shortest {x : Finite} (h : x.significand ≠ 0) (tie : TieRule) :
    ∃ n digits : Nat, n < 17 ∧
      x.shortest tie = (⟨digits, x.interval.decade - (n + 1 : Nat)⟩ : Digits).strip ∧
      x.interval.Contains (digits * (10 : Rat) ^ (x.interval.decade - (n + 1 : Nat))) ∧
      digits ≤ 10 ^ (n + 1) ∧
      x.magnitude < (digits + 1) * (10 : Rat) ^ (x.interval.decade - (n + 1 : Nat)) ∧
      ∀ i, i < n → ∀ a : Nat,
        ¬ x.interval.Contains (a * (10 : Rat) ^ (x.interval.decade - (i + 1 : Nat))) := by
  have hden := x.interval_den_ne_zero
  have hdecade := (Interval.decade_spec (interval_mid_ne_zero h) hden).2
  have hmagnitude : x.interval.Contains (x.interval.mid / x.interval.den) := by
    rw [interval_mid]
    exact contains_magnitude h
  -- a grid that the search passes over has no number in the interval
  have hempty : ∀ (j : Int), (x.interval.inUnits j).integer? tie = none →
      ∀ a : Nat, ¬ x.interval.Contains (a * (10 : Rat) ^ j) := by
    intro j hnone a ha
    rw [← Interval.holds_inUnits_iff hden,
      Interval.holds_iff_contains (Interval.inUnits_den_ne_zero hden j)] at ha
    refine Interval.not_contains_of_integer?_eq_none (Interval.inUnits_den_ne_zero hden j) ?_
      hnone a ha
    exact Interval.contains_inUnits_mid hmagnitude j
  unfold shortest
  rw [if_neg h]
  dsimp only
  cases hsearch : (List.range 17).findSome? fun n =>
      ((x.interval.inUnits (x.interval.decade - (n + 1 : Nat))).integer? tie).map fun digits =>
        (⟨digits, x.interval.decade - (n + 1 : Nat)⟩ : Digits) with
  | none =>
    rw [List.findSome?_eq_none_iff] at hsearch
    have hlast := hsearch 16 (by decide)
    rw [Option.map_eq_none_iff] at hlast
    obtain ⟨a, ha⟩ := exists_contains_of_decade h
    exact absurd ha (hempty _ hlast a)
  | some d =>
    obtain ⟨n, hn, hfound, hfirst⟩ := exists_of_findSome?_range hsearch
    rw [Option.map_eq_some_iff] at hfound
    obtain ⟨digits, hdigits, rfl⟩ := hfound
    obtain ⟨hholds, hbelow, hle⟩ := Interval.holds_of_integer? hdigits
    refine ⟨n, digits, hn, rfl, (Interval.holds_inUnits_iff hden _ _).1 hholds, ?_, ?_, ?_⟩
    · refine Nat.le_trans hle (Nat.succ_le_of_lt ?_)
      exact Interval.inUnits_mid_div_lt hden hdecade (n + 1)
    · rw [← interval_mid]
      exact Interval.mid_div_lt hden _ hbelow
    · intro i hi
      have hnone := hfirst i hi
      rw [Option.map_eq_none_iff] at hnone
      exact hempty _ hnone

/-! ## The decimal written -/

/-- The size of the decimal that is written for `x`. -/
def writtenMagnitude (x : Finite) : Rat :=
  x.written.digits * (10 : Rat) ^ x.written.exponent

theorem writtenValue_eq (x : Finite) :
    x.writtenValue = (if x.negative then -1 else 1) * x.writtenMagnitude :=
  mul_assoc _ _ _

theorem written_of_zero {x : Finite} (h : x.significand = 0) : x.written = ⟨0, 0⟩ := by
  unfold written shortest
  rw [if_pos h]

theorem writtenMagnitude_of_zero {x : Finite} (h : x.significand = 0) :
    x.writtenMagnitude = 0 := by
  rw [writtenMagnitude, written_of_zero h, Nat.cast_zero, zero_mul]

/-- The shortest decimal of a double rounds to it again. -/
theorem contains_shortest {x : Finite} (h : x.significand ≠ 0) (tie : TieRule) :
    x.interval.Contains ((x.shortest tie).digits * (10 : Rat) ^ (x.shortest tie).exponent) := by
  obtain ⟨n, digits, -, heq, hcontains, -⟩ := exists_shortest h tie
  rwa [heq, Digits.strip_value]

/-- So does what is written for it. -/
theorem contains_written {x : Finite} (h : x.significand ≠ 0) :
    x.interval.Contains x.writtenMagnitude :=
  contains_shortest h .up

/-- What is written for a double has `n + 1` digits at most and is less than a unit of its last place
below the magnitude, and no number of a coarser grid rounds to the double. -/
theorem exists_written {x : Finite} (h : x.significand ≠ 0) :
    ∃ n digits : Nat, n < 17 ∧ digits ≤ 10 ^ (n + 1) ∧ Keeps (n + 1) x.writtenMagnitude ∧
      x.writtenMagnitude = digits * (10 : Rat) ^ (x.interval.decade - (n + 1 : Nat)) ∧
      x.magnitude < (digits + 1) * (10 : Rat) ^ (x.interval.decade - (n + 1 : Nat)) ∧
      ∀ i, i < n → ∀ a : Nat,
        ¬ x.interval.Contains (a * (10 : Rat) ^ (x.interval.decade - (i + 1 : Nat))) := by
  obtain ⟨n, digits, hn, heq, -, hle, hlt, hcoarse⟩ := exists_shortest h .up
  have hvalue : x.writtenMagnitude =
      digits * (10 : Rat) ^ (x.interval.decade - (n + 1 : Nat)) := by
    rw [writtenMagnitude, written, heq, Digits.strip_value]
  refine ⟨n, digits, hn, hle, ?_, hvalue, hlt, hcoarse⟩
  rw [hvalue, ← Int.cast_natCast (n := digits)]
  refine keeps_of_natAbs_le_pow (Nat.succ_ne_zero n) ?_ _
  rwa [Int.natAbs_natCast]

/-- What is written lies on a grid of seventeen digits at most, and no coarser grid below the decade
has a number that rounds to the double. -/
theorem exists_written_grid {x : Finite} (h : x.significand ≠ 0) :
    ∃ j : Int, x.interval.decade ≤ j + 17 ∧
      (∃ a : Nat, x.writtenMagnitude = a * (10 : Rat) ^ j) ∧
      x.writtenMagnitude ≤ (10 : Rat) ^ x.interval.decade ∧
      x.magnitude < x.writtenMagnitude + (10 : Rat) ^ j ∧
      ∀ i, j < i → i < x.interval.decade → ∀ a : Nat,
        ¬ x.interval.Contains (a * (10 : Rat) ^ i) := by
  obtain ⟨n, digits, hn, hle, -, hvalue, hlt, hcoarse⟩ := exists_written h
  refine ⟨x.interval.decade - (n + 1 : Nat), by omega, ⟨digits, hvalue⟩, ?_, ?_, ?_⟩
  · have hpow : (digits : Rat) ≤ 10 ^ (n + 1) := by exact_mod_cast hle
    calc x.writtenMagnitude
        ≤ 10 ^ (n + 1) * (10 : Rat) ^ (x.interval.decade - (n + 1 : Nat)) := by
          rw [hvalue]
          exact mul_le_mul_of_nonneg_right hpow (by positivity)
      _ = (10 : Rat) ^ x.interval.decade := by
          rw [← zpow_natCast, ← zpow_add₀ (by norm_num), add_sub_cancel]
  · rw [hvalue]
    linarith
  · intro i hi hdecade
    obtain ⟨k, hk⟩ := Int.le.dest (Int.add_one_le_of_lt hdecade)
    have hgrid : i = x.interval.decade - (k + 1 : Nat) := by omega
    rw [hgrid]
    exact hcoarse k (by omega)

/-- Seventeen digits are enough for every double. -/
theorem keeps_written (x : Finite) : Keeps 17 x.writtenMagnitude := by
  by_cases h : x.significand = 0
  · rw [writtenMagnitude_of_zero h]
    exact Or.inr ⟨0, 0, by simp, by simp⟩
  · obtain ⟨n, -, hn, -, hkeeps, -⟩ := exists_written h
    exact hkeeps.mono (Nat.succ_ne_zero n) hn

/-- Half a unit of the last bit, as a part of a magnitude of 53 bits. -/
theorem half_unit_le {x : Finite} (h : 2 ^ 52 ≤ x.significand) :
    (2 : Rat) ^ x.exponent / 2 ≤ x.magnitude / 2 ^ 53 := by
  have hcast : (2 : Rat) ^ 52 ≤ x.significand := by exact_mod_cast h
  have hmul := mul_le_mul_of_nonneg_right hcast (show 0 ≤ (2 : Rat) ^ x.exponent by positivity)
  unfold magnitude
  linarith

/-- No two decimals of fifteen digits round to one double of full precision. -/
theorem eq_of_contains_of_keeps {x : Finite} (h : 2 ^ 52 ≤ x.significand) {a b : Rat}
    (ha : x.interval.Contains a) (hb : x.interval.Contains b) (hka : Keeps 15 a)
    (hkb : Keeps 15 b) : ¬ a < b := by
  intro hab
  have hne : x.significand ≠ 0 := by omega
  have hapos := pos_of_contains hne ha
  have hgap := hka.gap hkb (by decide) hapos hab
  have hnear := abs_le.1 (abs_sub_magnitude_le hne ha)
  have hnear' := abs_le.1 (abs_sub_magnitude_le hne hb)
  have hhalf := half_unit_le h
  rw [zpow_neg, zpow_natCast] at hgap
  norm_num at hgap hhalf
  linarith

/-- When a decimal of `p` digits lies in the interval, so does a number of the grid of `p`
digits. -/
theorem exists_contains_of_keeps {x : Finite} (h : x.significand ≠ 0) {d : Rat} {p : Nat}
    (hd : x.interval.Contains d) (hk : Keeps p d) (hp : p ≠ 0) :
    ∃ a : Nat, x.interval.Contains (a * (10 : Rat) ^ (x.interval.decade - p)) := by
  have hlow := (Interval.decade_spec (interval_mid_ne_zero h) x.interval_den_ne_zero).1
  rcases le_or_gt ((10 : Rat) ^ (x.interval.decade - 1)) d with hle | hlt
  · obtain ⟨a, ha⟩ := hk.exists_mul_zpow hp hle
    exact ⟨a, ha ▸ hd⟩
  · -- below the decade of the magnitude there is its first power of ten
    refine ⟨10 ^ (p - 1), ?_⟩
    have hexp : x.interval.decade - 1 = ((p - 1 : Nat) : Int) + (x.interval.decade - p) := by omega
    rw [hexp, Rat.zpow_add (by decide), Rat.zpow_natCast] at hlow hlt
    rw [interval_mid] at hlow
    push_cast
    exact hd.between (contains_magnitude h) hlt.le hlow

/-- A decimal of at most fifteen digits survives the passage through a double of full precision. -/
theorem written_eq_of_keeps {x : Finite} (h : 2 ^ 52 ≤ x.significand) {d : Rat}
    (hd : x.interval.Contains d) (hk : Keeps 15 d) : x.writtenMagnitude = d := by
  have hne : x.significand ≠ 0 := by omega
  obtain ⟨n, -, -, -, hkeeps, -, -, hcoarse⟩ := exists_written hne
  -- the grid of fifteen digits is not passed over
  have hfew : n + 1 ≤ 15 := by
    by_contra hmany
    obtain ⟨a, ha⟩ := exists_contains_of_keeps hne hd hk (by decide)
    exact hcoarse 14 (by omega) a ha
  have hkw := hkeeps.mono (Nat.succ_ne_zero n) hfew
  have hw := contains_written hne
  exact le_antisymm (not_lt.1 (eq_of_contains_of_keeps h hd hw hk hkw))
    (not_lt.1 (eq_of_contains_of_keeps h hw hd hkw hk))

end Finite

end UnitLedger.Binary64
