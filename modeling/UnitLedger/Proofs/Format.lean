import UnitLedger.Format
import UnitLedger.Proofs.Decimal.Places
import UnitLedger.Proofs.Quantity.Showing
set_option autoImplicit false

/-! # Text of quantities

The text of a stored quantity is the numeral of an integer, the count in the unit scaled by the
places and rounded, and behind it the symbol of the unit (`exists_quantity_of_find?`).
-/

namespace UnitLedger.Format

open Numeral Decimal Exact Registry StoredQuantity

/-- The number of decimals that quantities of a dimension are written with. -/
def places (d : Dimension) (o : DisplayOptions) : Nat :=
  if d.isCount then 0 else o.quantityDecimals.toNat

theorem places_le {o : DisplayOptions} (h : o.quantityDecimals ≤ 12) (d : Dimension) :
    places d o ≤ 12 := by
  have hle : o.quantityDecimals.toNat ≤ 12 := UInt32.le_iff_toNat_le.1 h
  unfold places
  split
  · omega
  · exact hle

/-- The text of `n` units of the last place of a unit. -/
def quantityText (n : Int) (places : Nat) (symbol : String) : String :=
  String.ofList (numeral n places) ++ " " ++ symbol

/-! ## Steps of the last place -/

/-- One step of the last of `places` places, in base units. -/
def stepSize (u : MeasureUnit) (places : Nat) : Rat := u.factor.toRat / 10 ^ places

theorem div_factor_mul_pow (u : MeasureUnit) (places : Nat) (b : Rat) :
    b / u.factor.toRat * 10 ^ places = b / stepSize u places := by
  rw [stepSize, div_div_eq_mul_div, div_mul_eq_mul_div]

theorem div_pow_mul_factor (u : MeasureUnit) (places : Nat) (b : Rat) :
    b / 10 ^ places * u.factor.toRat = b * stepSize u places := by
  rw [stepSize, div_mul_eq_mul_div, mul_div_assoc]

section StepSize

variable {u : MeasureUnit} (hu : u ∈ builtin.units)
include hu

theorem stepSize_pos (places : Nat) : 0 < stepSize u places := by
  have hone := (factor_bounds u hu).1
  unfold stepSize
  positivity

theorem stepSize_le (places : Nat) : stepSize u places ≤ 10 ^ 12 := by
  obtain ⟨hone, hlarge⟩ := factor_bounds u hu
  exact (div_le_self (by linarith) (one_le_pow₀ (by norm_num))).trans hlarge

/-- A step is a base unit or clearly smaller or clearly larger than one. -/
theorem stepSize_cases {places : Nat} (h : places ≤ 12) :
    stepSize u places = 1 ∨ 100 * stepSize u places ≤ 99 ∨ 101 ≤ 100 * stepSize u places := by
  have hten : (0 : Rat) < 10 ^ places := by positivity
  unfold stepSize
  rw [div_eq_one_iff_eq hten.ne', ← mul_div_assoc, div_le_iff₀ hten, le_div_iff₀ hten]
  exact factor_apart_from_pow u hu places h

/-- The steps in a quantity are not too many for the working precision. -/
theorem abs_steps_le (q : StoredQuantity) {n : Nat} (hn : n ≤ 12) :
    |q.baseValue.toInt / stepSize u n| ≤ 10 ^ 31 := by
  have hten : (0 : Rat) < 10 ^ n := by positivity
  have hpow : (10 : Rat) ^ n ≤ 10 ^ 12 := pow_le_pow_right₀ (by norm_num) hn
  rw [← div_factor_mul_pow, abs_mul, abs_of_pos hten]
  calc |q.baseValue.toInt / u.factor.toRat| * 10 ^ n
      ≤ 2 ^ 63 * 10 ^ 12 := mul_le_mul (abs_quotient_le hu) hpow hten.le (by norm_num)
    _ ≤ 10 ^ 31 := by norm_num

end StepSize

/-! ## Values as text -/

/-- A value is written with any number of decimals. -/
theorem value_ok (z : Decimal) (isCount : Bool) (decimals : Nat) :
    ∃ number, value z isCount decimals = .ok number := by
  unfold value
  split
  · exact ⟨_, rfl⟩
  · obtain ⟨y, hy⟩ := z.roundPlaces_ok decimals
    rw [hy]
    exact ⟨_, rfl⟩

/-- A finite amount of money is written like a value that is no count. -/
theorem money_finite (x : Binary64.Finite) (o : DisplayOptions) :
    money (.finite x) o = value (ofFinite x) false o.moneyDecimals.toNat := rfl

theorem display_eq_of_value {q : DisplayQuantity} {o : DisplayOptions} {number : String}
    (h : value (ofFinite q.value) q.dimension.isCount o.quantityDecimals.toNat = .ok number) :
    display q o = .ok (number ++ " " ++ q.unit.symbol) := by
  unfold display
  dsimp only
  rw [h]
  rfl

/-- A stored integer keeps all its digits when the point is moved. -/
theorem keeps_baseValue_div (q : StoredQuantity) (n : Nat) :
    Keeps workingPrecision (q.baseValue.toInt / 10 ^ n) := by
  have hcount : digitCount q.baseValue.toInt.natAbs ≤ workingPrecision := by
    rw [digitCount_le_iff]
    have := natAbs_baseValue_le q
    unfold workingPrecision
    omega
  have hmoved := (keeps_intCast hcount).mul_zpow (-(n : Int))
  rwa [zpow_neg, zpow_natCast, ← div_eq_mul_inv] at hmoved

theorem keeps_baseValue (q : StoredQuantity) :
    Keeps workingPrecision (q.baseValue.toInt : Rat) := by
  simpa using keeps_baseValue_div q 0

/-- A count is written as the whole number it is, because there is only one unit of counts. -/
theorem value_of_isCount {q : StoredQuantity} {u : MeasureUnit} (hu : u ∈ builtin.units)
    (hone : u.factor.toRat = 1) {z : Decimal} (hz : q.inUnit u = .ok z) (decimals : Nat) :
    value z true decimals = .ok (String.ofList (numeral q.baseValue.toInt 0)) := by
  obtain ⟨z', hz', hprec, -, hexact⟩ := exists_inUnit q hu
  obtain rfl : z' = z := Except.ok.inj (hz'.symm.trans hz)
  rw [hone, div_one] at hexact
  have hvalue := hexact (keeps_baseValue q)
  have hlen : z'.length ≤ workingPrecision := by
    rw [length_le_iff_keeps _ (by decide), hvalue]
    exact keeps_baseValue q
  have hround := toRat_roundHalfAway hlen (Or.inr (hlen.trans_eq hprec.symm))
  rw [hvalue, halfAway_intCast] at hround
  unfold value
  rw [if_pos rfl]
  unfold fixedText
  rw [fixed_of_toRat (n := q.baseValue.toInt)]
  rw [hround, pow_zero, div_one]

/-- Any other value is written with as many places as are asked for. -/
theorem exists_value_places {q : StoredQuantity} {u : MeasureUnit} (hu : u ∈ builtin.units)
    {n : Nat} (hn : n ≤ 12) {z : Decimal} (hz : q.inUnit u = .ok z) :
    ∃ scaled : Rat,
      value z false n = .ok (String.ofList (numeral (halfAway scaled) n)) ∧
      |scaled - q.baseValue.toInt / stepSize u n| ≤
        |q.baseValue.toInt / stepSize u n| * (2 / 10 ^ 49) ∧
      (Keeps workingPrecision (q.baseValue.toInt / stepSize u n) →
        scaled = q.baseValue.toInt / stepSize u n) := by
  obtain ⟨z', hz', hprec, hnear, hexact⟩ := exists_inUnit q hu
  obtain rfl : z' = z := Except.ok.inj (hz'.symm.trans hz)
  have hten : (0 : Rat) < 10 ^ n := by positivity
  have hlarge := abs_steps_le hu q hn
  rw [← div_factor_mul_pow] at hlarge ⊢
  generalize (q.baseValue.toInt : Rat) / u.factor.toRat = r at *
  have hscaledNear : |z'.toRat * 10 ^ n - r * 10 ^ n| ≤
      |r * 10 ^ n| * (10 : Rat) ^ (-49 : Int) / 2 := by
    have hmul := mul_le_mul_of_nonneg_right hnear hten.le
    rw [← sub_mul, abs_mul, abs_mul, abs_of_pos hten]
    linarith
  have hbound : |z'.toRat * 10 ^ n| ≤ 10 ^ 40 := by
    have hsize := abs_sub_abs_le_abs_sub (z'.toRat * 10 ^ n) (r * 10 ^ n)
    generalize z'.toRat * 10 ^ n = a at *
    generalize r * 10 ^ n = b at *
    norm_num at hscaledNear hlarge ⊢
    linarith
  obtain ⟨y, scaled, hy, hvalue, hscaled, hscaledExact⟩ := exists_roundPlaces hprec hbound
  refine ⟨scaled, ?_, ?_, ?_⟩
  · unfold value
    rw [if_neg Bool.false_ne_true, hy]
    show Except.ok (String.ofList (y.fixed n)) = _
    rw [fixed_of_toRat hvalue]
  · have htriangle := abs_sub_le scaled (z'.toRat * 10 ^ n) (r * 10 ^ n)
    have hsize := abs_sub_abs_le_abs_sub (z'.toRat * 10 ^ n) (r * 10 ^ n)
    generalize z'.toRat * 10 ^ n = a at *
    generalize r * 10 ^ n = b at *
    norm_num at hscaledNear hscaled ⊢
    linarith [abs_nonneg b]
  · -- where the steps fit the precision so does the quotient: the point is only moved back
    intro hkeeps
    have hquotient := hkeeps.mul_zpow (-(n : Int))
    rw [zpow_neg, zpow_natCast, mul_inv_cancel_right₀ hten.ne'] at hquotient
    rw [hexact hquotient] at hscaledExact
    exact hscaledExact hkeeps

/-- The value in a unit as it is written, before it is rounded to places. -/
theorem exists_value {q : StoredQuantity} {u : MeasureUnit} {o : DisplayOptions}
    (hu : u ∈ builtin.units) (hd : u.dimension = q.dimension) (ho : o.quantityDecimals ≤ 12)
    {z : Decimal} (hz : q.inUnit u = .ok z) :
    ∃ scaled : Rat,
      value z q.dimension.isCount o.quantityDecimals.toNat =
        .ok (String.ofList (numeral (halfAway scaled) (places q.dimension o))) ∧
      |scaled - q.baseValue.toInt / stepSize u (places q.dimension o)| ≤
        |q.baseValue.toInt / stepSize u (places q.dimension o)| * (2 / 10 ^ 49) ∧
      (Keeps workingPrecision (q.baseValue.toInt / stepSize u (places q.dimension o)) →
        scaled = q.baseValue.toInt / stepSize u (places q.dimension o)) := by
  have hfew := places_le ho q.dimension
  unfold places at hfew ⊢
  cases hcount : q.dimension.isCount with
  | true =>
    have hone := factor_of_isCount u hu (hd ▸ hcount)
    have hsteps : (q.baseValue.toInt : Rat) / stepSize u 0 = q.baseValue.toInt := by
      rw [stepSize, hone, pow_zero, div_one, div_one]
    refine ⟨q.baseValue.toInt, ?_, ?_, ?_⟩
    · rw [value_of_isCount hu hone hz, halfAway_intCast, if_pos rfl]
    · rw [if_pos rfl, hsteps, sub_self, abs_zero]
      positivity
    · rw [if_pos rfl, hsteps]
      exact fun _ => rfl
  | false =>
    rw [hcount, if_neg Bool.false_ne_true] at hfew
    simp only [Bool.false_eq_true, if_false]
    exact exists_value_places hu hfew hz

/-- A stored quantity is written in every unit of its dimension, under the symbol of the unit. -/
theorem exists_quantity_of_find? {q : StoredQuantity} {symbol : String} {u : MeasureUnit}
    {o : DisplayOptions} (hfind : builtin.find? symbol = some u) (hd : u.dimension = q.dimension)
    (ho : o.quantityDecimals ≤ 12) :
    ∃ scaled : Rat,
      quantity q symbol o =
        .ok (quantityText (halfAway scaled) (places q.dimension o) u.symbol) ∧
      |scaled - q.baseValue.toInt / stepSize u (places q.dimension o)| ≤
        |q.baseValue.toInt / stepSize u (places q.dimension o)| * (2 / 10 ^ 49) ∧
      (Keeps workingPrecision (q.baseValue.toInt / stepSize u (places q.dimension o)) →
        scaled = q.baseValue.toInt / stepSize u (places q.dimension o)) := by
  have hu := mem_units_of_find? hfind
  obtain ⟨z, hz, -⟩ := exists_inUnit q hu
  obtain ⟨scaled, hvalue, hnear, hexact⟩ := exists_value hu hd ho hz
  have hresolve : builtin.resolveFor q.dimension symbol = .ok u :=
    resolveFor_eq_ok_iff.2 (lookup_eq_ok_iff.2 ⟨hfind, hd⟩)
  refine ⟨scaled, ?_, hnear, hexact⟩
  unfold quantity
  rw [hresolve]
  show (q.inUnit u >>= fun exact => _) = _
  rw [hz]
  show (value z q.dimension.isCount o.quantityDecimals.toNat >>= fun number => _) = _
  rw [hvalue]
  rfl

/-- The symbol of a unit is one of the texts it is found under. -/
theorem exists_quantity {q : StoredQuantity} {u : MeasureUnit} {o : DisplayOptions}
    (hu : u ∈ builtin.units) (hd : u.dimension = q.dimension) (ho : o.quantityDecimals ≤ 12) :
    ∃ scaled : Rat,
      quantity q u.symbol o =
        .ok (quantityText (halfAway scaled) (places q.dimension o) u.symbol) ∧
      |scaled - q.baseValue.toInt / stepSize u (places q.dimension o)| ≤
        |q.baseValue.toInt / stepSize u (places q.dimension o)| * (2 / 10 ^ 49) ∧
      (Keeps workingPrecision (q.baseValue.toInt / stepSize u (places q.dimension o)) →
        scaled = q.baseValue.toInt / stepSize u (places q.dimension o)) :=
  exists_quantity_of_find? (find?_symbol u hu) hd ho

end UnitLedger.Format
