import UnitLedger.Proofs.Binary64.Nearest
import UnitLedger.Proofs.Binary64.Shortest
set_option autoImplicit false

/-! # A number has one nearest double

No magnitude is nearer to a number than the one that it is rounded to
(`Finite.Rounds.abs_sub_le_abs_sub`).  The intervals of two doubles of one sign have no number in
common (`Finite.Rounds.unique`), so whatever decimal is rounded to a double is read as that double
(`ofDecimal_of_rounds`).  A shortest decimal is such a one, whichever of two equally near decimals is
taken (`ofDecimal_shortest`).
-/

namespace UnitLedger.Binary64

namespace Finite.Rounds

variable {x y : Finite} {r : Rat}

/-- What is rounded to `x` is at most half a unit of the last bit above it, and less for an odd
significand. -/
theorem le_upper (h : x.Rounds r) :
    r ≤ (x.significand + 1 / 2) * 2 ^ x.exponent ∧
      (x.significand % 2 = 1 → r < (x.significand + 1 / 2) * 2 ^ x.exponent) := by
  by_cases hzero : x.significand = 0
  · have hexp : x.exponent = minExponent := x.canonical.2.2.2.resolve_left (by omega)
    rw [Rounds, if_pos hzero] at h
    rw [hzero, hexp, Nat.cast_zero]
    exact ⟨by linarith, by omega⟩
  · have hcontains := h.contains hzero
    have hhigh : (x.interval.high / x.interval.den : Rat) =
        (x.significand + 1 / 2) * 2 ^ x.exponent := by
      rw [interval_high, magnitude]
      ring
    rw [← hhigh]
    refine ⟨hcontains.bounds.2, fun hodd => ?_⟩
    have hopen : x.interval.closed = false := decide_eq_false (by omega)
    rw [Interval.Contains, hopen, if_neg Bool.false_ne_true] at hcontains
    exact hcontains.2

/-- What is rounded to `x` is at most half a unit of the last bit below it, and less for an odd
significand.  Below a power of two it is a quarter. -/
theorem lower_le (h : x.Rounds r) (hne : x.significand ≠ 0) :
    ((x.significand : Rat) - 1 / 2) * 2 ^ x.exponent ≤ r ∧
      (x.significand % 2 = 1 → ((x.significand : Rat) - 1 / 2) * 2 ^ x.exponent < r) ∧
      (x.significand = 2 ^ 52 → minExponent < x.exponent →
        ((x.significand : Rat) - 1 / 4) * 2 ^ x.exponent ≤ r) := by
  have hunit : (0 : Rat) < 2 ^ x.exponent := by positivity
  have hcontains := h.contains hne
  have hlow := hcontains.bounds.1
  have hbottom := interval_low hne
  split at hbottom
  · next hpow =>
    rw [hbottom, magnitude] at hlow
    refine ⟨by linarith, by omega, fun _ _ => by linarith⟩
  · next hpow =>
    have hends : (x.interval.low / x.interval.den : Rat) =
        ((x.significand : Rat) - 1 / 2) * 2 ^ x.exponent := by
      rw [hbottom, magnitude]
      ring
    rw [← hends]
    refine ⟨hlow, fun hodd => ?_, fun hsig hexp => absurd ⟨hsig, hexp⟩ hpow⟩
    have hopen : x.interval.closed = false := decide_eq_false (by omega)
    rw [Interval.Contains, hopen, if_neg Bool.false_ne_true] at hcontains
    exact hcontains.1

/-- On one grid a number is rounded to one significand. -/
theorem significand_le (hx : x.Rounds r) (hy : y.Rounds r) (hexp : x.exponent = y.exponent) :
    y.significand ≤ x.significand := by
  by_contra hlt
  have hunit : (0 : Rat) < 2 ^ y.exponent := by positivity
  obtain ⟨hlow, hlowOdd, -⟩ := hy.lower_le (by omega)
  obtain ⟨hhigh, hhighOdd⟩ := hx.le_upper
  rw [hexp] at hhigh hhighOdd
  rcases Nat.lt_or_eq_of_le (Nat.succ_le_of_lt (Nat.lt_of_not_le hlt)) with hapart | hnext
  · have hcast : (x.significand : Rat) + 2 ≤ y.significand := by exact_mod_cast hapart
    have hmul := mul_le_mul_of_nonneg_right hcast hunit.le
    linarith
  · -- the two neighbours share an end, and one of them is odd
    have hcast : (x.significand : Rat) + 1 = y.significand := by exact_mod_cast hnext
    rw [← hcast] at hlow hlowOdd
    rcases Nat.mod_two_eq_zero_or_one x.significand with heven | hodd
    · have hlt' := hlowOdd (by omega)
      linarith
    · have hlt' := hhighOdd hodd
      linarith

/-- A number is not rounded to two grids. -/
theorem exponent_le (hx : x.Rounds r) (hy : y.Rounds r) : y.exponent ≤ x.exponent := by
  by_contra hlt
  have hgrid := two_zpow_le (Int.add_one_le_of_lt (Int.lt_of_not_ge hlt))
  rw [two_zpow_succ] at hgrid
  have hunit : (0 : Rat) < 2 ^ x.exponent := by positivity
  have hunitY : (0 : Rat) < 2 ^ y.exponent := by positivity
  have hmin : minExponent < y.exponent := by
    have := x.canonical.2.1
    omega
  have hfull : 2 ^ 52 ≤ y.significand := y.canonical.2.2.2.resolve_right (by omega)
  obtain ⟨hlow, -, hlowPow⟩ := hy.lower_le (by omega)
  obtain ⟨hhigh, hhighOdd⟩ := hx.le_upper
  have hmost : (x.significand : Rat) + 1 ≤ 2 ^ 53 := by exact_mod_cast x.canonical.1
  have hmul := mul_le_mul_of_nonneg_right hmost hunit.le
  rcases Nat.lt_or_eq_of_le hfull with hmore | hpow
  · have hcast : (2 : Rat) ^ 52 + 1 ≤ y.significand := by exact_mod_cast hmore
    have hmulY := mul_le_mul_of_nonneg_right hcast hunitY.le
    linarith
  · have hquarter := hlowPow hpow.symm hmin
    rw [← hpow] at hquarter
    push_cast at hquarter
    -- only the largest significand of the finer grid reaches as far, and it is odd
    rcases Nat.lt_or_eq_of_le (Nat.succ_le_of_lt x.canonical.1) with hless | hlast
    · have hcast : (x.significand : Rat) + 2 ≤ 2 ^ 53 := by exact_mod_cast hless
      have hmul' := mul_le_mul_of_nonneg_right hcast hunit.le
      linarith
    · have hlt' := hhighOdd (by omega)
      linarith

/-- A number is rounded to one magnitude, in its one form. -/
theorem unique_magnitude (hx : x.Rounds r) (hy : y.Rounds r) :
    x.exponent = y.exponent ∧ x.significand = y.significand := by
  have hexp := le_antisymm (exponent_le hy hx) (exponent_le hx hy)
  exact ⟨hexp, le_antisymm (significand_le hy hx hexp.symm) (significand_le hx hy hexp)⟩

/-- A number is rounded to one double of either sign. -/
theorem unique (hx : x.Rounds r) (hy : y.Rounds r) (hsign : x.negative = y.negative) : x = y := by
  obtain ⟨hexp, hsig⟩ := hx.unique_magnitude hy
  obtain ⟨sx, mx, qx, hcx⟩ := x
  obtain ⟨sy, my, qy, hcy⟩ := y
  dsimp only at hsign hexp hsig
  subst hsign hexp hsig
  rfl

end Finite.Rounds

/-! ## Distance -/

namespace Finite

variable {x y : Finite} {r : Rat}

/-- A coarser grid is part of a finer one. -/
theorem exists_magnitude_eq (h : x.exponent ≤ y.exponent) :
    ∃ n : Nat, y.magnitude = n * 2 ^ x.exponent := by
  obtain ⟨k, hk⟩ := Int.le.dest h
  refine ⟨y.significand * 2 ^ k, ?_⟩
  rw [magnitude, ← hk, zpow_add₀ (by norm_num), zpow_natCast]
  push_cast
  ring

/-- A magnitude of a finer grid stays half a unit below the 53 bits of the coarser one. -/
theorem magnitude_le_of_exponent_lt (h : y.exponent < x.exponent) :
    y.magnitude ≤ (2 ^ 52 - 1 / 2) * 2 ^ x.exponent := by
  have hunit : (0 : Rat) < 2 ^ y.exponent := by positivity
  have hmost : (y.significand : Rat) + 1 ≤ 2 ^ 53 := by exact_mod_cast y.canonical.1
  have hmul := mul_le_mul_of_nonneg_right hmost hunit.le
  have hgrid := two_zpow_le (Int.add_one_le_of_lt h)
  rw [two_zpow_succ] at hgrid
  rw [magnitude]
  linarith

/-- The next double above is a unit away. -/
theorem magnitude_add_unit_le (h : x.magnitude < y.magnitude) :
    x.magnitude + 2 ^ x.exponent ≤ y.magnitude := by
  have hunit : (0 : Rat) < 2 ^ x.exponent := by positivity
  rcases le_or_gt x.exponent y.exponent with hcoarse | hfine
  · obtain ⟨n, hn⟩ := exists_magnitude_eq hcoarse
    rw [hn, magnitude] at h ⊢
    have hlt : x.significand < n := by exact_mod_cast lt_of_mul_lt_mul_right h hunit.le
    have hcast : (x.significand : Rat) + 1 ≤ n := by exact_mod_cast hlt
    have hmul := mul_le_mul_of_nonneg_right hcast hunit.le
    linarith
  · -- a double of 53 bits has only smaller ones on finer grids
    have hmin : minExponent < x.exponent := y.canonical.2.1.trans_lt hfine
    have hbits : (2 : Rat) ^ 52 ≤ x.significand := by
      exact_mod_cast x.canonical.2.2.2.resolve_right hmin.ne'
    have hmul := mul_le_mul_of_nonneg_right hbits hunit.le
    have hle := magnitude_le_of_exponent_lt hfine
    rw [magnitude] at h
    linarith

/-- The next double below is a unit away, or half of one below a power of two. -/
theorem magnitude_add_unit_le_of_lt (h : y.magnitude < x.magnitude) :
    y.magnitude + 2 ^ x.exponent ≤ x.magnitude ∨
      x.significand = 2 ^ 52 ∧ minExponent < x.exponent ∧
        y.magnitude + 2 ^ x.exponent / 2 ≤ x.magnitude := by
  have hunit : (0 : Rat) < 2 ^ x.exponent := by positivity
  rcases le_or_gt x.exponent y.exponent with hcoarse | hfine
  · left
    obtain ⟨n, hn⟩ := exists_magnitude_eq hcoarse
    rw [hn, magnitude] at h ⊢
    have hlt : n < x.significand := by exact_mod_cast lt_of_mul_lt_mul_right h hunit.le
    have hcast : (n : Rat) + 1 ≤ x.significand := by exact_mod_cast hlt
    have hmul := mul_le_mul_of_nonneg_right hcast hunit.le
    linarith
  · have hmin : minExponent < x.exponent := y.canonical.2.1.trans_lt hfine
    have hle := magnitude_le_of_exponent_lt hfine
    rw [magnitude_eq x]
    rcases Nat.lt_or_eq_of_le (x.canonical.2.2.2.resolve_right hmin.ne') with hmore | hpow
    · left
      have hcast : (2 : Rat) ^ 52 + 1 ≤ x.significand := by exact_mod_cast hmore
      have hmul := mul_le_mul_of_nonneg_right hcast hunit.le
      linarith
    · right
      refine ⟨hpow.symm, hmin, ?_⟩
      rw [← hpow]
      push_cast
      linarith

/-- No magnitude is nearer to a number than the one that it is rounded to. -/
theorem Rounds.abs_sub_le_abs_sub (h : x.Rounds r) (hr : 0 ≤ r) (y : Finite) :
    |r - x.magnitude| ≤ |r - y.magnitude| := by
  have hunit : (0 : Rat) < 2 ^ x.exponent := by positivity
  have hnear := h.abs_sub_le hr
  rcases lt_trichotomy x.magnitude y.magnitude with habove | hsame | hbelow
  · have hgap := magnitude_add_unit_le habove
    refine hnear.trans ?_
    rw [abs_sub_comm]
    refine le_trans ?_ (le_abs_self _)
    linarith [(abs_le.1 hnear).2]
  · rw [hsame]
  · have hne : x.significand ≠ 0 := by
      intro hzero
      rw [magnitude_eq x, hzero, Nat.cast_zero, zero_mul] at hbelow
      exact absurd hbelow (not_lt.2 y.magnitude_nonneg)
    rcases magnitude_add_unit_le_of_lt hbelow with hgap | ⟨hpow, hmin, hgap⟩
    · refine hnear.trans (le_trans ?_ (le_abs_self _))
      linarith [(abs_le.1 hnear).1]
    · have hlow := (h.lower_le hne).2.2 hpow hmin
      rw [sub_mul, ← magnitude_eq] at hlow
      refine le_trans (abs_le.2 ⟨?_, ?_⟩) (le_abs_self _) <;> linarith

end Finite

theorem RoundsTo.unique {negative : Bool} {r : Rat} {a b : Binary64} (ha : RoundsTo negative r a)
    (hb : RoundsTo negative r b) : a = b := by
  rcases lt_or_ge r overflowThreshold with hlt | hge
  · obtain ⟨x, rfl, hx, hroundx⟩ := ha.exists_finite hlt
    obtain ⟨y, rfl, hy, hroundy⟩ := hb.exists_finite hlt
    rw [hroundx.unique hroundy (hx.trans hy.symm)]
  · rw [ha.eq_infinite hge, hb.eq_infinite hge]

/-! ## Reading decimals -/

/-- A decimal that is rounded to a double is read as that double. -/
theorem ofDecimal_of_rounds {x : Finite} {magnitude : Nat} {exponent : Int}
    (h : x.Rounds (magnitude * (10 : Rat) ^ exponent)) :
    ofDecimal x.negative magnitude exponent = .finite x :=
  (roundsTo_ofDecimal x.negative magnitude exponent).unique (h.roundsTo (by positivity))

namespace Finite

/-- A shortest decimal is rounded to the double that it was made for. -/
theorem rounds_shortest (x : Finite) (tie : TieRule) :
    x.Rounds ((x.shortest tie).digits * (10 : Rat) ^ (x.shortest tie).exponent) := by
  by_cases h : x.significand = 0
  · have hzero : x.shortest tie = ⟨0, 0⟩ := by
      unfold shortest
      rw [if_pos h]
    rw [hzero, Rounds, if_pos h, Nat.cast_zero, zero_mul]
    positivity
  · rw [Rounds, if_neg h]
    exact contains_shortest h tie

end Finite

/-- A double is read from its shortest decimal, however that is spelled. -/
theorem ofDecimal_shortest (x : Finite) (tie : TieRule) {magnitude : Nat} {exponent : Int}
    (h : (magnitude : Rat) * (10 : Rat) ^ exponent =
      (x.shortest tie).digits * (10 : Rat) ^ (x.shortest tie).exponent) :
    ofDecimal x.negative magnitude exponent = .finite x :=
  ofDecimal_of_rounds (h ▸ x.rounds_shortest tie)

end UnitLedger.Binary64
