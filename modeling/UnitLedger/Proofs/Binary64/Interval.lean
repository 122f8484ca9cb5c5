import UnitLedger.Binary64.Shortest
import UnitLedger.Proofs.Decimal.Precision
import Mathlib.Algebra.Order.Field.Power
import Mathlib.Data.Rat.Floor
import Mathlib.Tactic.FieldSimp
import Mathlib.Tactic.Linarith
import Mathlib.Tactic.NormNum
import Mathlib.Tactic.Positivity
import Mathlib.Tactic.Ring
set_option autoImplicit false

/-! # The decimals that round to a double

The interval of a double as a set of rational numbers: `Contains`.  Integers are tested for it in
units of any power of ten (`holds_inUnits_iff`), its numbers are within half a unit of the last bit
(`abs_sub_magnitude_le`), and a grid of seventeen digits always meets it
(`exists_contains_of_decade`).
-/

namespace UnitLedger

/-! ## Fractions scaled by powers -/

/-- A power with an integer exponent as a fraction of two powers, one of which is one. -/
theorem zpow_eq_div_pow_toNat (b : Rat) (q : Int) :
    b ^ q = b ^ q.toNat / b ^ (-q).toNat := by
  rcases Int.le_total 0 q with h | h
  · have hzero : (-q).toNat = 0 := by omega
    have hq : q = (q.toNat : Int) := by omega
    rw [hzero, pow_zero, div_one]
    conv => lhs; rw [hq, zpow_natCast]
  · have hzero : q.toNat = 0 := by omega
    have hq : q = -((-q).toNat : Int) := by omega
    rw [hzero, pow_zero, one_div]
    conv => lhs; rw [hq, zpow_neg, zpow_natCast]

/-- Numerator and denominator scaled so that a fraction is divided by a power. -/
theorem scaled_div {b : Nat} (hb : b ≠ 0) (num den : Nat) (q : Int) :
    ((num * b ^ (-q).toNat : Nat) : Rat) / ((den * b ^ q.toNat : Nat) : Rat) =
      num / den / (b : Rat) ^ q := by
  have hb' : (b : Rat) ≠ 0 := Nat.cast_ne_zero.2 hb
  rw [zpow_eq_div_pow_toNat]
  push_cast
  field_simp

/-- A fraction is compared with a power by whole numbers. -/
theorem mul_pow_toNat_le_iff {b den : Nat} (hb : b ≠ 0) (hden : den ≠ 0) (num : Nat) (q : Int) :
    den * b ^ q.toNat ≤ num * b ^ (-q).toNat ↔ (b : Rat) ^ q ≤ num / den := by
  have hb' : (0 : Rat) < b := Nat.cast_pos.2 (Nat.pos_of_ne_zero hb)
  have hden' : (0 : Rat) < den := Nat.cast_pos.2 (Nat.pos_of_ne_zero hden)
  rw [zpow_eq_div_pow_toNat, div_le_div_iff₀ (by positivity) hden', mul_comm den]
  exact_mod_cast Iff.rfl

/-- The lengths of numerator and denominator leave two sizes for a fraction, and the comparison
decides between them. -/
theorem size_of_lengths {b num den m n : Nat} {l : Int} (hb : b ≠ 0) (hnumlow : b ^ m ≤ num)
    (hnumhigh : num < b ^ (m + 1)) (hdenlow : b ^ n ≤ den) (hdenhigh : den < b ^ (n + 1))
    (hl : l = if den * b ^ ((m : Int) - n).toNat ≤ num * b ^ (-((m : Int) - n)).toNat
      then (m : Int) - n else m - n - 1) :
    (b : Rat) ^ l ≤ num / den ∧ (num / den : Rat) < (b : Rat) ^ (l + 1) := by
  have hb' : (b : Rat) ≠ 0 := Nat.cast_ne_zero.2 hb
  have hpow : (0 : Rat) < (b : Rat) ^ n := by positivity
  have hnumlow' : (b : Rat) ^ m ≤ num := by exact_mod_cast hnumlow
  have hnumhigh' : (num : Rat) < (b : Rat) ^ (m + 1) := by exact_mod_cast hnumhigh
  have hdenlow' : (b : Rat) ^ n ≤ den := by exact_mod_cast hdenlow
  have hdenhigh' : (den : Rat) < (b : Rat) ^ (n + 1) := by exact_mod_cast hdenhigh
  have hden : den ≠ 0 := by
    rintro rfl
    exact absurd hdenlow (Nat.not_le.2 (Nat.pow_pos (Nat.pos_of_ne_zero hb)))
  have hiff := mul_pow_toNat_le_iff hb hden num ((m : Int) - n)
  rw [hl]
  split
  · next h =>
    refine ⟨hiff.1 h, ?_⟩
    have hexp : (m : Int) - n + 1 = ((m + 1 : Nat) : Int) - (n : Int) := by omega
    rw [hexp, zpow_sub₀ hb', zpow_natCast, zpow_natCast]
    exact div_lt_div₀ hnumhigh' hdenlow' (by positivity) hpow
  · next h =>
    rw [sub_add_cancel]
    refine ⟨?_, lt_of_not_ge fun hle => h (hiff.2 hle)⟩
    have hexp : (m : Int) - n - 1 = (m : Int) - ((n + 1 : Nat) : Int) := by omega
    rw [hexp, zpow_sub₀ hb', zpow_natCast, zpow_natCast]
    exact div_le_div₀ (by positivity) hnumlow' (hpow.trans_le hdenlow') hdenhigh'.le

namespace Binary64

open Numeral

/-! ## Intervals -/

namespace Interval

/-- `r` lies in the interval. -/
def Contains (v : Interval) (r : Rat) : Prop :=
  if v.closed then (v.low : Rat) / v.den ≤ r ∧ r ≤ v.high / v.den
  else (v.low : Rat) / v.den < r ∧ r < v.high / v.den

theorem Contains.bounds {v : Interval} {r : Rat} (h : v.Contains r) :
    (v.low : Rat) / v.den ≤ r ∧ r ≤ v.high / v.den := by
  unfold Contains at h
  split at h
  · exact h
  · exact ⟨h.1.le, h.2.le⟩

theorem contains_of_lt {v : Interval} {r : Rat} (hlow : (v.low : Rat) / v.den < r)
    (hhigh : r < v.high / v.den) : v.Contains r := by
  unfold Contains
  split
  · exact ⟨hlow.le, hhigh.le⟩
  · exact ⟨hlow, hhigh⟩

/-- What lies between two numbers of the interval lies in it. -/
theorem Contains.between {v : Interval} {a b r : Rat} (ha : v.Contains a) (hb : v.Contains b)
    (har : a ≤ r) (hrb : r ≤ b) : v.Contains r := by
  unfold Contains at ha hb ⊢
  split
  · next hc =>
    rw [if_pos hc] at ha hb
    exact ⟨ha.1.trans har, hrb.trans hb.2⟩
  · next hc =>
    rw [if_neg hc] at ha hb
    exact ⟨ha.1.trans_le har, hrb.trans_lt hb.2⟩

theorem holds_iff_contains {v : Interval} (hden : v.den ≠ 0) (n : Nat) :
    v.holds n = true ↔ v.Contains n := by
  have hden' : (0 : Rat) < v.den := Nat.cast_pos.2 (Nat.pos_of_ne_zero hden)
  unfold holds Contains
  split
  · rw [Bool.and_eq_true, decide_eq_true_iff, decide_eq_true_iff, div_le_iff₀ hden',
      le_div_iff₀ hden']
    exact_mod_cast Iff.rfl
  · rw [Bool.and_eq_true, decide_eq_true_iff, decide_eq_true_iff, div_lt_iff₀ hden',
      lt_div_iff₀ hden']
    exact_mod_cast Iff.rfl

/-- A number lies in the interval when it does so in units of a power of ten. -/
theorem contains_inUnits_iff (v : Interval) (j : Int) (r : Rat) :
    (v.inUnits j).Contains r ↔ v.Contains (r * (10 : Rat) ^ j) := by
  have hten : (0 : Rat) < 10 ^ j := by positivity
  have hscale : ∀ a : Nat,
      ((a * 10 ^ (-j).toNat : Nat) : Rat) / ((v.den * 10 ^ j.toNat : Nat) : Rat) =
        a / v.den / (10 : Rat) ^ j :=
    fun a => scaled_div (by decide) a v.den j
  unfold Contains inUnits
  dsimp only
  rw [hscale, hscale, div_le_iff₀ hten, le_div_iff₀ hten, div_lt_iff₀ hten, lt_div_iff₀ hten]

theorem inUnits_den_ne_zero {v : Interval} (hden : v.den ≠ 0) (j : Int) :
    (v.inUnits j).den ≠ 0 :=
  Nat.mul_ne_zero hden (by positivity)

/-- An integer in units of a power of ten is tested for lying in the interval. -/
theorem holds_inUnits_iff {v : Interval} (hden : v.den ≠ 0) (j : Int) (n : Nat) :
    (v.inUnits j).holds n = true ↔ v.Contains (n * (10 : Rat) ^ j) := by
  rw [holds_iff_contains (inUnits_den_ne_zero hden j), contains_inUnits_iff]

theorem inUnits_mid_div (v : Interval) (j : Int) :
    ((v.inUnits j).mid / (v.inUnits j).den : Rat) = v.mid / v.den / (10 : Rat) ^ j :=
  scaled_div (by decide) v.mid v.den j

theorem contains_inUnits_mid {v : Interval} (hmid : v.Contains (v.mid / v.den)) (j : Int) :
    (v.inUnits j).Contains ((v.inUnits j).mid / (v.inUnits j).den) := by
  rw [inUnits_mid_div, contains_inUnits_iff, div_mul_cancel₀ _ (by positivity)]
  exact hmid

/-- The decade of a magnitude is the one its value lies in. -/
theorem decade_spec {v : Interval} (hmid : v.mid ≠ 0) (hden : v.den ≠ 0) :
    (10 : Rat) ^ (v.decade - 1) ≤ v.mid / v.den ∧ (v.mid / v.den : Rat) < 10 ^ v.decade := by
  have hmidpos := (digitCount_pos_iff v.mid).2 hmid
  have hdenpos := (digitCount_pos_iff v.den).2 hden
  have hlengths : ((digitCount v.mid - 1 : Nat) : Int) - ((digitCount v.den - 1 : Nat) : Int) =
      digitCount v.mid - digitCount v.den := by omega
  have hsize := size_of_lengths (l := v.decade - 1) (by decide) (pow_le_of_ne_zero hmid)
    (by rw [Nat.sub_add_cancel hmidpos]; exact lt_pow_digitCount v.mid) (pow_le_of_ne_zero hden)
    (by rw [Nat.sub_add_cancel hdenpos]; exact lt_pow_digitCount v.den) ?_
  · rw [sub_add_cancel] at hsize
    exact_mod_cast hsize
  · rw [hlengths]
    unfold decade
    dsimp only
    split
    · exact add_sub_cancel_right _ _
    · rfl

/-- The magnitude has `i` digits before the point in units of `i` digits below its decade. -/
theorem inUnits_mid_div_lt {v : Interval} (hden : v.den ≠ 0)
    (h : (v.mid / v.den : Rat) < 10 ^ v.decade) (i : Nat) :
    (v.inUnits (v.decade - i)).mid / (v.inUnits (v.decade - i)).den < 10 ^ i := by
  have hden' := inUnits_den_ne_zero hden (v.decade - i)
  rw [Nat.div_lt_iff_lt_mul (Nat.pos_of_ne_zero hden')]
  have hlt : ((v.inUnits (v.decade - i)).mid / (v.inUnits (v.decade - i)).den : Rat) < 10 ^ i := by
    rw [inUnits_mid_div, div_lt_iff₀ (by positivity), ← zpow_natCast, ← zpow_add₀ (by norm_num)]
    rwa [add_sub_cancel]
  rw [div_lt_iff₀ (Nat.cast_pos.2 (Nat.pos_of_ne_zero hden'))] at hlt
  exact_mod_cast hlt

/-- The integer above the magnitude in units of a power of ten. -/
theorem mid_div_lt {v : Interval} (hden : v.den ≠ 0) (j : Int) {n : Nat}
    (h : (v.inUnits j).mid / (v.inUnits j).den ≤ n) :
    (v.mid / v.den : Rat) < (n + 1) * (10 : Rat) ^ j := by
  have hden' := Nat.pos_of_ne_zero (inUnits_den_ne_zero hden j)
  have hlt := (Nat.div_lt_iff_lt_mul hden').1 (Nat.lt_succ_of_le h)
  have hcast : ((v.inUnits j).mid / (v.inUnits j).den : Rat) < n + 1 := by
    rw [div_lt_iff₀ (Nat.cast_pos.2 hden')]
    exact_mod_cast hlt
  rwa [inUnits_mid_div, div_lt_iff₀ (by positivity)] at hcast

/-! ## Integers of an interval -/

theorem holds_of_integer? {tie : TieRule} {v : Interval} {n : Nat} (h : v.integer? tie = some n) :
    v.holds n = true ∧ v.mid / v.den ≤ n ∧ n ≤ v.mid / v.den + 1 := by
  unfold integer? at h
  dsimp only at h
  split at h
  · simp at h
  · next hbelow _ =>
    obtain rfl := Option.some.inj h
    exact ⟨hbelow, Nat.le_refl _, Nat.le_succ _⟩
  · next _ habove =>
    obtain rfl := Option.some.inj h
    exact ⟨habove, Nat.le_succ _, Nat.le_refl _⟩
  · next hbelow habove =>
    have hor : n = v.mid / v.den ∨ n = v.mid / v.den + 1 := by
      split at h
      · exact Or.inl (Option.some.inj h).symm
      · exact Or.inr (Option.some.inj h).symm
      · split at h
        · exact Or.inl (Option.some.inj h).symm
        · exact Or.inr (Option.some.inj h).symm
    rcases hor with rfl | rfl
    · exact ⟨hbelow, Nat.le_refl _, Nat.le_succ _⟩
    · exact ⟨habove, Nat.le_succ _, Nat.le_refl _⟩

theorem not_holds_of_integer?_eq_none {tie : TieRule} {v : Interval}
    (h : v.integer? tie = none) :
    v.holds (v.mid / v.den) = false ∧ v.holds (v.mid / v.den + 1) = false := by
  unfold integer? at h
  dsimp only at h
  split at h
  · next hbelow habove => exact ⟨hbelow, habove⟩
  · simp at h
  · simp at h
  · split at h <;> simp at h

/-- When neither neighbour of the magnitude lies in the interval, no integer does. -/
theorem not_contains_of_integer?_eq_none {tie : TieRule} {v : Interval} (hden : v.den ≠ 0)
    (hmid : v.Contains (v.mid / v.den)) (h : v.integer? tie = none) (n : Nat) :
    ¬ v.Contains n := by
  intro hn
  have hden' : (0 : Rat) < v.den := Nat.cast_pos.2 (Nat.pos_of_ne_zero hden)
  obtain ⟨hbelow, habove⟩ := not_holds_of_integer?_eq_none h
  rw [← Bool.not_eq_true, holds_iff_contains hden] at hbelow habove
  rcases Nat.lt_or_ge (v.mid / v.den) n with hlt | hge
  · apply habove
    refine hmid.between hn ?_ (by exact_mod_cast hlt)
    rw [div_le_iff₀ hden']
    have hnext := Nat.lt_mul_div_succ v.mid (Nat.pos_of_ne_zero hden)
    rw [Nat.mul_comm] at hnext
    exact_mod_cast hnext.le
  · apply hbelow
    refine hn.between hmid (by exact_mod_cast hge) ?_
    rw [le_div_iff₀ hden']
    exact_mod_cast Nat.div_mul_le_self v.mid v.den

end Interval

/-! ## The interval of a double -/

namespace Finite

/-- The size of `x` without its sign. -/
def magnitude (x : Finite) : Rat := x.significand * (2 : Rat) ^ x.exponent

theorem magnitude_eq (x : Finite) : x.magnitude = x.significand * (2 : Rat) ^ x.exponent := rfl

theorem magnitude_nonneg (x : Finite) : 0 ≤ x.magnitude := by
  unfold magnitude
  positivity

theorem toRat_eq (x : Finite) : x.toRat = (if x.negative then -1 else 1) * x.magnitude :=
  mul_assoc _ _ _

theorem interval_den_ne_zero (x : Finite) : x.interval.den ≠ 0 := by
  unfold interval
  dsimp only
  positivity

theorem interval_mid_ne_zero {x : Finite} (h : x.significand ≠ 0) : x.interval.mid ≠ 0 := by
  unfold interval
  dsimp only
  positivity

/-- Quarters of the last bit, which is the unit that the interval is written in. -/
theorem quarters_div (x : Finite) (n : Nat) :
    ((n * 2 ^ (x.exponent - 2).toNat : Nat) : Rat) / ((2 ^ (-(x.exponent - 2)).toNat : Nat) : Rat) =
      n / 4 * (2 : Rat) ^ x.exponent := by
  have hunit : (2 : Rat) ^ x.exponent = 4 * (2 : Rat) ^ (x.exponent - 2) := by
    rw [zpow_sub₀ (by norm_num)]
    norm_num
    ring
  rw [hunit, zpow_eq_div_pow_toNat 2 (x.exponent - 2)]
  push_cast
  ring

theorem interval_mid (x : Finite) : (x.interval.mid / x.interval.den : Rat) = x.magnitude := by
  unfold interval magnitude
  dsimp only
  rw [quarters_div]
  push_cast
  ring

theorem interval_high (x : Finite) :
    (x.interval.high / x.interval.den : Rat) = x.magnitude + (2 : Rat) ^ x.exponent / 2 := by
  unfold interval magnitude
  dsimp only
  rw [quarters_div]
  push_cast
  ring

/-- Downwards the interval reaches half as far below a power of two. -/
theorem interval_low {x : Finite} (h : x.significand ≠ 0) :
    (x.interval.low / x.interval.den : Rat) = x.magnitude - (2 : Rat) ^ x.exponent /
      (if x.significand = 2 ^ 52 ∧ minExponent < x.exponent then 4 else 2) := by
  unfold interval magnitude
  dsimp only
  rw [quarters_div]
  split
  · rw [Nat.cast_sub (by omega)]
    push_cast
    ring
  · rw [Nat.cast_sub (by omega)]
    push_cast
    ring

theorem contains_magnitude {x : Finite} (h : x.significand ≠ 0) :
    x.interval.Contains x.magnitude := by
  have hunit : (0 : Rat) < 2 ^ x.exponent := by positivity
  apply Interval.contains_of_lt
  · rw [interval_low h]
    split <;> linarith
  · rw [interval_high]
    linarith

/-- The numbers of the interval are within half a unit of the last bit. -/
theorem abs_sub_magnitude_le {x : Finite} (h : x.significand ≠ 0) {r : Rat}
    (hr : x.interval.Contains r) : |r - x.magnitude| ≤ (2 : Rat) ^ x.exponent / 2 := by
  have hunit : (0 : Rat) < 2 ^ x.exponent := by positivity
  obtain ⟨hlow, hhigh⟩ := hr.bounds
  rw [interval_low h] at hlow
  rw [interval_high] at hhigh
  rw [abs_le]
  constructor
  · split at hlow <;> linarith
  · linarith

/-- A double that is not zero has a unit of its last bit at least. -/
theorem unit_le_magnitude {x : Finite} (h : x.significand ≠ 0) :
    (2 : Rat) ^ x.exponent ≤ x.magnitude := by
  have hone : (1 : Rat) ≤ x.significand := by exact_mod_cast Nat.pos_of_ne_zero h
  exact le_mul_of_one_le_left (by positivity) hone

theorem pos_of_contains {x : Finite} (h : x.significand ≠ 0) {r : Rat}
    (hr : x.interval.Contains r) : 0 < r := by
  have hunit : (0 : Rat) < 2 ^ x.exponent := by positivity
  have hnear := (abs_le.1 (abs_sub_magnitude_le h hr)).1
  linarith [unit_le_magnitude h]

/-- The numbers of the interval are beyond the magnitude by half of it at most. -/
theorem le_magnitude_of_contains {x : Finite} (h : x.significand ≠ 0) {r : Rat}
    (hr : x.interval.Contains r) : r ≤ 3 / 2 * x.magnitude := by
  have hnear := (abs_le.1 (abs_sub_magnitude_le h hr)).2
  linarith [unit_le_magnitude h]

/-- A unit of seventeen digits is less than the interval is long. -/
theorem grid_lt_width {x : Finite} (h : x.significand ≠ 0) {g : Rat}
    (hg : g * 10 ^ 16 ≤ x.magnitude) :
    g < x.interval.high / x.interval.den - x.interval.low / x.interval.den := by
  have hunit : (0 : Rat) < 2 ^ x.exponent := by positivity
  rw [interval_high, interval_low h]
  unfold magnitude at hg ⊢
  split
  · next hpow =>
    rw [hpow.1] at hg ⊢
    push_cast at hg ⊢
    linarith
  · have hbits : (x.significand : Rat) ≤ 2 ^ 53 := by exact_mod_cast x.canonical.1.le
    have hmul := mul_le_mul_of_nonneg_right hbits hunit.le
    linarith

/-- A grid of seventeen digits has a number in every interval. -/
theorem exists_contains_of_decade {x : Finite} (h : x.significand ≠ 0) :
    ∃ n : Nat, x.interval.Contains (n * (10 : Rat) ^ (x.interval.decade - 17)) := by
  have hten : (0 : Rat) < 10 ^ (x.interval.decade - 17) := by positivity
  have hdecade := (Interval.decade_spec (interval_mid_ne_zero h) x.interval_den_ne_zero).1
  rw [interval_mid] at hdecade
  have hgrid : (10 : Rat) ^ (x.interval.decade - 17) * 10 ^ 16 ≤ x.magnitude := by
    have hexp : x.interval.decade - 1 = x.interval.decade - 17 + (16 : Nat) := by omega
    rwa [hexp, zpow_add₀ (by norm_num), zpow_natCast] at hdecade
  have hwidth := grid_lt_width h hgrid
  have hpos := x.magnitude_nonneg
  generalize (10 : Rat) ^ (x.interval.decade - 17) = g at hten hwidth
  have hbelow := Nat.floor_le (div_nonneg hpos hten.le)
  have habove := Nat.lt_floor_add_one (x.magnitude / g)
  rw [le_div_iff₀ hten] at hbelow
  rw [div_lt_iff₀ hten] at habove
  have hunit : (0 : Rat) < 2 ^ x.exponent := by positivity
  have hhigh := interval_high x
  -- if the grid point below the magnitude is out, the one above it is not beyond the other end
  by_cases hlow : (x.interval.low / x.interval.den : Rat) < ⌊x.magnitude / g⌋₊ * g
  · exact ⟨_, Interval.contains_of_lt hlow (by linarith)⟩
  · refine ⟨⌊x.magnitude / g⌋₊ + 1, Interval.contains_of_lt ?_ ?_⟩
    · have hle := (contains_magnitude h).bounds.1
      push_cast
      linarith
    · push_cast
      linarith

end Finite

end Binary64

end UnitLedger
