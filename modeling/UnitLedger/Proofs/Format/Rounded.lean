import UnitLedger.Proofs.Decimal.FixedText
import UnitLedger.Proofs.Format
import UnitLedger.Proofs.Quantity.Grain
set_option autoImplicit false

/-! # Text of quantities, correctly rounded

The number that is written for a stored quantity is computed with three roundings: of the quotient
by the factor, of that scaled by the places, and to an integer.  It is the exact quotient rounded
once (`quantity_correctly_rounded`).  Away from ties the exact number of steps is a fraction of
small denominator, so it is farther from a tie than the first two roundings can move it
(`halfAway_eq_of_near_fraction`); at a tie it has few digits, and they do not move it at all.  The
factor of the grain is not exact, but a count of grains never comes to a tie.
-/

namespace UnitLedger

open Numeral Decimal Exact Registry StoredQuantity

namespace Exact

/-! ## Fractions and ties -/

theorem IsTie.exists_odd {x : Rat} (h : IsTie x) : ∃ k : Int, 2 * x = (2 * k + 1 : Int) := by
  rcases (abs_eq (show (0 : Rat) ≤ 1 / 2 by norm_num)).1 h with hup | hdown
  · refine ⟨halfAway x, ?_⟩
    push_cast
    linarith
  · refine ⟨halfAway x - 1, ?_⟩
    push_cast
    linarith

/-- A fraction of denominator `c` that is no tie is off every tie by half of `1 / c` at least, and a
number nearer to it than that is rounded to the same integer. -/
theorem halfAway_eq_of_near_fraction {x y : Rat} {m c : Int} (hc : 0 < c) (hx : x * c = m)
    (htie : ¬ IsTie x) (hnear : 2 * |y - x| * c < 1) : halfAway y = halfAway x := by
  have hpos : (0 : Rat) < c := by exact_mod_cast hc
  have hlt : |x - halfAway x| < 1 / 2 := lt_of_le_of_ne (abs_sub_halfAway_le x) htie
  -- in units of `1 / (2 c)` both the distance and one half are integers
  have hscaled : 2 * |x - halfAway x| * c = ((2 * |m - halfAway x * c| : Int) : Rat) := by
    push_cast
    rw [← hx, ← sub_mul, abs_mul, abs_of_pos hpos, mul_assoc]
  have hbelow : 2 * |m - halfAway x * c| < c := by
    have hmul := mul_lt_mul_of_pos_right hlt hpos
    have hcast : ((2 * |m - halfAway x * c| : Int) : Rat) < c := by
      rw [← hscaled]
      linarith
    exact_mod_cast hcast
  have hgap : 2 * |x - halfAway x| * c ≤ c - 1 := by
    rw [hscaled]
    exact_mod_cast Int.le_sub_one_of_lt hbelow
  apply halfAway_eq_of_abs_sub_lt
  have htriangle := abs_sub_le y x (halfAway x)
  have hsum : 2 * |y - halfAway x| * c < 1 * c := by
    have := mul_le_mul_of_nonneg_right htriangle hpos.le
    linarith
  have := lt_of_mul_lt_mul_right hsum hpos.le
  linarith

/-- A tie that is not too large has few digits. -/
theorem IsTie.keeps {x : Rat} (htie : IsTie x) (hx : |x| ≤ 10 ^ 31) :
    Keeps workingPrecision x := by
  obtain ⟨k, hk⟩ := htie.exists_odd
  have hvalue : x = ((5 * (2 * k + 1) : Int) : Rat) * (10 : Rat) ^ (-1 : Int) := by
    rw [Int.cast_mul, ← hk, zpow_neg_one]
    norm_num
    ring
  have hcount : (5 * (2 * k + 1)).natAbs ≤ 10 ^ 32 := by
    have habs : |((5 * (2 * k + 1) : Int) : Rat)| ≤ 10 ^ 32 := by
      rw [Int.cast_mul, ← hk, abs_mul, abs_mul]
      norm_num at hx ⊢
      linarith
    rw [abs_intCast] at habs
    exact_mod_cast habs
  rw [hvalue]
  apply keeps_of_digitCount_le
  rw [digitCount_le_iff]
  exact lt_of_le_of_lt hcount (by decide)

end Exact

namespace Format

/-! ## Exact steps -/

/-- A factor is a fraction of small numerator. -/
theorem num_exactFactor_le :
    ∀ u ∈ builtin.units, ∀ f ∈ exactFactor? u.symbol, 0 < f.num ∧ f.num ≤ 10 ^ 12 := by
  decide +kernel

/-- The number of steps is a fraction whose denominator is the numerator of the factor. -/
theorem steps_mul_num {f : Rat} (hf : 0 < f.num) (b : Int) (n : Nat) :
    (b : Rat) / f * 10 ^ n * f.num = (b * 10 ^ n * f.den : Int) := by
  have hden : (f.den : Rat) ≠ 0 := Nat.cast_ne_zero.2 f.den_nz
  have hnum : (f.num : Rat) ≠ 0 := Int.cast_ne_zero.2 hf.ne'
  have hvalue : f = f.num / f.den := f.num_div_den.symm
  conv => lhs; lhs; lhs; rw [hvalue]
  push_cast
  field_simp

/-- Grains never come to a tie: the numerator of their factor is odd. -/
theorem not_isTie_grains (b : Int) (n : Nat) :
    ¬ IsTie ((b : Rat) / (6479891 / 100000) * 10 ^ n) := by
  intro htie
  obtain ⟨k, hk⟩ := htie.exists_odd
  have hodd : 2 * (b * 10 ^ n * 100000) = (2 * k + 1) * 6479891 := by
    have hcast : (2 * (b * 10 ^ n * 100000) : Rat) = ((2 * k + 1 : Int) : Rat) * 6479891 := by
      rw [← hk]
      ring
    exact_mod_cast hcast
  omega

/-- The steps in a quantity by the factor that is computed, against the exact ones. -/
theorem abs_steps_sub_le {u : MeasureUnit} {f : Rat} (hu : u ∈ builtin.units)
    (hf : exactFactor? u.symbol = some f) (b : Int) (n : Nat) :
    |b / stepSize u n - b / f * 10 ^ n| ≤ |b / stepSize u n| * (1 / 10 ^ 49) := by
  have hsteps :=
    ((near_factor hu hf).div (factor_pos hu).ne' (exactFactor_pos hu hf).ne' b).mul_right (10 ^ n)
  rwa [Near, div_factor_mul_pow, abs_sub_comm] at hsteps

/-! ## One rounding -/

/-- The computed number of steps is rounded to the integer that the exact one is rounded to. -/
theorem halfAway_scaled {q : StoredQuantity} {u : MeasureUnit} {f scaled : Rat}
    (hu : u ∈ builtin.units) (hf : exactFactor? u.symbol = some f) {n : Nat} (hn : n ≤ 12)
    (hnear : |scaled - q.baseValue.toInt / stepSize u n| ≤
      |q.baseValue.toInt / stepSize u n| * (2 / 10 ^ 49))
    (hexact : Keeps workingPrecision (q.baseValue.toInt / stepSize u n) →
      scaled = q.baseValue.toInt / stepSize u n) :
    halfAway scaled = halfAway (q.baseValue.toInt / f * 10 ^ n) := by
  have hlarge := abs_steps_le hu q hn
  by_cases htie : IsTie (q.baseValue.toInt / f * 10 ^ n)
  · rcases factor_cases hu hf with ⟨-, heq⟩ | ⟨-, rfl⟩
    · rw [← div_factor_mul_pow, heq] at hexact hlarge
      rw [hexact (htie.keeps hlarge)]
    · exact absurd htie (not_isTie_grains _ n)
  · obtain ⟨hpos, hsmall⟩ := num_exactFactor_le u hu f hf
    refine halfAway_eq_of_near_fraction hpos (steps_mul_num hpos _ n) htie ?_
    have hfactor := abs_steps_sub_le hu hf q.baseValue.toInt n
    have htriangle := abs_sub_le scaled (q.baseValue.toInt / stepSize u n)
      (q.baseValue.toInt / f * 10 ^ n)
    generalize (q.baseValue.toInt : Rat) / stepSize u n = steps at *
    generalize (q.baseValue.toInt : Rat) / f * 10 ^ n = exact at *
    have hmoved : |scaled - exact| ≤ 1 / 10 ^ 17 := by
      norm_num at hnear hfactor hlarge ⊢
      linarith
    have hnum : (f.num : Rat) ≤ 10 ^ 12 := by exact_mod_cast hsmall
    have hproduct := mul_le_mul hmoved hnum (by exact_mod_cast hpos.le) (by norm_num)
    norm_num at hproduct
    linarith

/-- A stored quantity is written correctly rounded: in every unit of its dimension the number is the
count divided by the factor that the tables define, rounded once to the places asked for with a half
going away from zero, and written out in positional notation. -/
theorem quantity_correctly_rounded {q : StoredQuantity} {symbol : String} {u : MeasureUnit}
    {f : Rat} {o : DisplayOptions} (hu : builtin.find? symbol = some u)
    (hd : u.dimension = q.dimension) (hf : exactFactor? u.symbol = some f)
    (ho : o.quantityDecimals ≤ 12) :
    ∃ number : List Char,
      quantity q symbol o = .ok (String.ofList number ++ " " ++ u.symbol) ∧
      IsFixedText (toPlaces (q.baseValue.toInt / f) (places q.dimension o))
        (places q.dimension o) number := by
  obtain ⟨scaled, htext, hnear, hexact⟩ := exists_quantity_of_find? hu hd ho
  refine ⟨_, htext, ?_⟩
  rw [halfAway_scaled (mem_units_of_find? hu) hf (places_le ho q.dimension) hnear hexact, toPlaces]
  exact isFixedText_numeral _ _

/-- Minus one milligram in grains, with twelve decimals. -/
theorem quantity_correctly_rounded_grains :
    (⟨.imperial, 12, 2⟩ : DisplayOptions).quantityDecimals ≤ 12 ∧
      quantity ⟨-1, .weight⟩ " GR" ⟨.imperial, 12, 2⟩ = .ok "-0.015432358353 gr" ∧
      ∃ number : List Char,
        quantity ⟨-1, .weight⟩ " GR" ⟨.imperial, 12, 2⟩ =
          .ok (String.ofList number ++ " " ++ "gr") ∧
        IsFixedText (toPlaces ((-1 : Int64).toInt / (6479891 / 100000)) 12) 12 number :=
  ⟨by decide, by decide +kernel,
    quantity_correctly_rounded (q := ⟨-1, .weight⟩) (o := ⟨.imperial, 12, 2⟩)
      (u := ⟨"gr", "grain", .weight, .imperial, grainFactor⟩)
      (by decide +kernel) rfl grain_exactFactor (by decide)⟩

end Format

end UnitLedger
