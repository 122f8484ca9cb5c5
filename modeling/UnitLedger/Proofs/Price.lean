import UnitLedger.Price
import UnitLedger.Proofs.Quantity.Grain
import UnitLedger.Proofs.Quantity.Showing
set_option autoImplicit false

/-! # Prices and totals

A finite price of a known unit always becomes a price per base unit, because no unit is smaller than
a base unit (`exists_ofPrice`).  What is multiplied with a stored quantity is the decimal written
for that double; the product is exact and leaves as a double (`leaves_totalFor`).  The total is thus
off by the quotient, by a unit of the last bit of the price and by half a unit of its own, together
less than a part in `2 ^ 51` (`totalFor_near`).  The price for another unit is a product of doubles
that is not checked, and is infinite when it is too large (`price_outcome`).
-/

namespace UnitLedger

open Numeral Decimal Exact Registry Binary64

namespace UnitPrice

variable {d : Dimension} {symbol : String} {u : MeasureUnit}

/-! ## The price per base unit -/

/-- A quotient by a factor is no larger than the dividend, as far as fifty digits go. -/
theorem abs_quotient_le_of_near {r v : Rat} (hu : u ∈ builtin.units)
    (hexact : u.factor.toRat = 1 → r = v) (hnear : Near (1 / 10 ^ 49) r (v / u.factor.toRat)) :
    |r| ≤ |v| := by
  have hlow := (factor_bounds u hu).1
  rcases factor_apart_from_pow u hu 0 (by decide) with hone | hsmall | hlarge
  · rw [hexact (hone.trans (pow_zero 10))]
  · rw [pow_zero] at hsmall
    linarith
  · rw [pow_zero] at hlarge
    have hpos := factor_pos hu
    have hsize := abs_sub_abs_le_abs_sub r (v / u.factor.toRat)
    have hquotient : |v / u.factor.toRat| ≤ |v| * (100 / 101) := by
      rw [abs_div, abs_of_pos hpos, div_le_iff₀ hpos]
      have := mul_le_mul_of_nonneg_left (show 101 / 100 ≤ u.factor.toRat by linarith)
        (abs_nonneg v)
      linarith
    unfold Near at hnear
    norm_num at hnear
    linarith [abs_nonneg v]

/-- A finite price of a unit gives a price per base unit: the double nearest to the quotient by the
factor, which is taken at fifty digits. -/
theorem exists_ofPrice (hu : builtin.find? symbol = some u) (hd : u.dimension = d) (x : Finite) :
    ∃ (z : Rat) (y : Finite), ofPrice d (.finite x) symbol = .ok ⟨.finite y, d⟩ ∧
      Amount.Leaves z (.ok y) ∧ Near (1 / 10 ^ 49) z (x.writtenValue / u.factor.toRat) := by
  have hmem := mem_units_of_find? hu
  obtain ⟨z, hz, -, hnear, hexact⟩ :=
    StoredQuantity.exists_ofBase hmem (ofFinite_precision x)
  rw [toRat_ofFinite] at hnear hexact
  have hclose : Near (1 / 10 ^ 49) z.toRat (x.writtenValue / u.factor.toRat) :=
    hnear.mono (by norm_num)
  have hkept : u.factor.toRat = 1 → z.toRat = x.writtenValue := by
    intro hone
    rw [hone, div_one] at hexact
    exact hexact (x.keeps_writtenValue.mono (by decide) (by decide))
  have hfits : |z.toRat| < overflowThreshold :=
    (abs_quotient_le_of_near hmem hkept hclose).trans_lt
      (x.rounds_writtenValue.lt_overflowThreshold (abs_nonneg _))
  have hleaves : Amount.Leaves z.toRat (Amount.toDouble z) := Amount.leaves_leave z _
  obtain ⟨y, hy, -⟩ := hleaves.exists_ok hfits
  rw [hy] at hleaves
  refine ⟨z.toRat, y, ?_, hleaves, hclose⟩
  have hlookup : builtin.lookup d symbol = .ok u := lookup_eq_ok_iff.2 ⟨hu, hd⟩
  have henter : Amount.enter (.finite x) = .ok (ofFinite x) := rfl
  rw [ofPrice, bind_of_eq_ok hlookup, bind_of_eq_ok henter, bind_of_eq_ok hz, bind_of_eq_ok hy]
  rfl

/-! ## Totals -/

/-- The product with a stored quantity is exact, and leaves as a double. -/
theorem leaves_totalFor (y : Finite) {q : StoredQuantity} (hq : q.dimension = d) :
    Amount.Leaves (y.writtenValue * q.baseValue.toInt) (totalFor ⟨.finite y, d⟩ q) := by
  have hcount : Keeps 19 (q.baseValue.toInt : Rat) :=
    keeps_intCast_of_lt ((StoredQuantity.natAbs_baseValue_le q).trans_lt (by decide))
  have hkeeps := (y.keeps_writtenValue.mul hcount (by decide) (by decide)).mono
    (q := workingPrecision) (by decide) (by decide)
  have hmax : max (ofFinite y).precision q.amount.precision = workingPrecision := by
    rw [ofFinite_precision, StoredQuantity.amount, ofInt_precision, Nat.max_self]
  have hproduct : ((ofFinite y).mul q.amount).toRat = y.writtenValue * q.baseValue.toInt := by
    rw [← toRat_ofFinite, ← q.toRat_amount] at hkeeps ⊢
    apply toRat_mul_of_keeps
    rwa [hmax]
  unfold totalFor
  rw [if_pos hq, ← hproduct]
  exact Amount.leaves_leave _ _

/-- A number near one of full precision is rounded to 53 bits as well. -/
theorem normalThreshold_lt_of_near {e a b : Rat} (h : Near e a b) (he : e ≤ 1 / 2 ^ 54)
    (hb : (2 : Rat) ^ (-1022 : Int) ≤ |b|) : normalThreshold < |a| := by
  have hnear := h.mono he
  have hsize := abs_sub_abs_le_abs_sub b a
  rw [abs_sub_comm] at hsize
  refine normalThreshold_lt (le_trans (mul_le_mul_of_nonneg_right hb (by norm_num)) ?_)
  unfold Near at hnear
  linarith only [hnear, hsize]

/-- The price per base unit that a total is computed from, against the exact one: the quotient is
off by little, and the decimal written for the double by a unit of its last bit. -/
theorem exists_ofPrice_near {f : Rat} (hu : builtin.find? symbol = some u) (hd : u.dimension = d)
    (hf : exactFactor? u.symbol = some f) {x : Finite}
    (hx : (2 : Rat) ^ (-1022 : Int) ≤ |x.writtenValue / f|) :
    ∃ y : Finite, ofPrice d (.finite x) symbol = .ok ⟨.finite y, d⟩ ∧
      normalThreshold ≤ |y.writtenValue| ∧
      Near (5 / 2 ^ 54) y.writtenValue (x.writtenValue / f) := by
  have hmem := mem_units_of_find? hu
  obtain ⟨z, y, hprice, hleaves, hclose⟩ := exists_ofPrice hu hd x
  have hz := hclose.trans (near_div_factor hmem hf x.writtenValue) (by norm_num)
  have hnormal := normalThreshold_lt_of_near hz (by norm_num) hx
  have hwritten := hleaves.near_writtenValue hnormal.le
  exact ⟨y, hprice, hleaves.normalThreshold_le_written hnormal,
    (hwritten.trans hz (by norm_num)).mono (by norm_num)⟩

/-- A total is the product of the decimal written for the price and the count, to half a unit of its
last bit. -/
theorem near_of_totalFor {y total : Finite} {q : StoredQuantity} (hq : q.dimension = d)
    (hy : normalThreshold ≤ |y.writtenValue|) (h : totalFor ⟨.finite y, d⟩ q = .ok total) :
    Near (1 / (2 ^ 53 - 1)) total.toRat (y.writtenValue * q.baseValue.toInt) := by
  have hleaves := leaves_totalFor y hq
  rw [h] at hleaves
  by_cases hzero : q.baseValue.toInt = 0
  · rw [hzero, Int.cast_zero, mul_zero] at hleaves ⊢
    have htotal : total.toRat = 0 := by
      rw [Finite.toRat_eq, Finite.magnitude, hleaves.significand_eq_zero, Nat.cast_zero, zero_mul,
        mul_zero]
    rw [htotal]
    exact near_self (by norm_num) 0
  · have hone : (1 : Rat) ≤ |(q.baseValue.toInt : Rat)| := by
      exact_mod_cast Int.one_le_abs hzero
    apply hleaves.near_toRat
    rw [abs_mul]
    exact hy.trans (le_mul_of_one_le_right (abs_nonneg _) hone)

/-- A total is near the exact cost: whatever unit the price was given in, the price times the count
of base units divided by the factor that the tables define is met to a part in `2 ^ 51`.  There is a
total for every cost of no more than `2 ^ 1023`. -/
theorem totalFor_near {f : Rat} (hu : builtin.find? symbol = some u) (hd : u.dimension = d)
    (hf : exactFactor? u.symbol = some f) {x : Finite}
    (hx : (2 : Rat) ^ (-1022 : Int) ≤ |x.writtenValue / f|) :
    ∃ p, ofPrice d (.finite x) symbol = .ok p ∧
      ∀ q : StoredQuantity, q.dimension = d →
        (|x.writtenValue * q.baseValue.toInt / f| ≤ 2 ^ 1023 → ∃ total, p.totalFor q = .ok total) ∧
        ∀ total, p.totalFor q = .ok total →
          |total.toRat - x.writtenValue * q.baseValue.toInt / f| ≤
            2 ^ (-51 : Int) * |x.writtenValue * q.baseValue.toInt / f| := by
  obtain ⟨y, hprice, hnormal, hnear⟩ := exists_ofPrice_near hu hd hf hx
  refine ⟨_, hprice, fun q hq => ?_⟩
  have hcost := hnear.mul_right q.baseValue.toInt
  rw [div_mul_eq_mul_div] at hcost
  constructor
  · intro hsmall
    have hsize := abs_sub_abs_le_abs_sub (y.writtenValue * q.baseValue.toInt)
      (x.writtenValue * q.baseValue.toInt / f)
    have hfits : |y.writtenValue * q.baseValue.toInt| < overflowThreshold := by
      refine lt_of_le_of_lt ?_ two_pow_lt_overflowThreshold
      unfold Near at hcost
      generalize (2 : Rat) ^ 1023 = most at hsmall ⊢
      linarith [abs_nonneg (x.writtenValue * q.baseValue.toInt / f)]
    obtain ⟨total, htotal, -⟩ := (leaves_totalFor y hq).exists_ok hfits
    exact ⟨total, htotal⟩
  · intro total htotal
    have hrounded := near_of_totalFor hq hnormal htotal
    have hsum : Near (2 ^ (-51 : Int)) total.toRat (x.writtenValue * q.baseValue.toInt / f) :=
      (hrounded.trans hcost (by norm_num)).mono (by norm_num)
    exact hsum.trans_eq (mul_comm _ _)

/-- Prices of 19.99 a grain, whose factor is not exact. -/
theorem totalFor_near_grains :
    (2 : Rat) ^ (-1022 : Int) ≤
        |(⟨false, 5626684784446013, -48, by decide⟩ : Finite).writtenValue / (6479891 / 100000)| ∧
      ∃ p, ofPrice .weight (.finite ⟨false, 5626684784446013, -48, by decide⟩) "gr" = .ok p ∧
        ∀ q : StoredQuantity, q.dimension = .weight →
          (|(⟨false, 5626684784446013, -48, by decide⟩ : Finite).writtenValue *
              q.baseValue.toInt / (6479891 / 100000)| ≤ 2 ^ 1023 →
            ∃ total, p.totalFor q = .ok total) ∧
          ∀ total, p.totalFor q = .ok total →
            |total.toRat - (⟨false, 5626684784446013, -48, by decide⟩ : Finite).writtenValue *
                q.baseValue.toInt / (6479891 / 100000)| ≤
              2 ^ (-51 : Int) *
                |(⟨false, 5626684784446013, -48, by decide⟩ : Finite).writtenValue *
                  q.baseValue.toInt / (6479891 / 100000)| := by
  have hlarge : (2 : Rat) ^ (-1022 : Int) ≤
      |(⟨false, 5626684784446013, -48, by decide⟩ : Finite).writtenValue / (6479891 / 100000)| := by
    decide +kernel
  exact ⟨hlarge, totalFor_near StoredQuantity.find?_grain rfl grain_exactFactor hlarge⟩

/-! ## Prices for other units -/

/-- A factor leaves as a double. -/
theorem exists_factorDouble (hu : u ∈ builtin.units) : ∃ g : Finite, u.factorDouble = .ok g := by
  obtain ⟨hlow, hhigh⟩ := factor_bounds u hu
  have habs : |u.factor.toRat| = u.factor.toRat := abs_of_nonneg (by linarith)
  have hrange : InRange |u.factor.toRat| := by
    rw [habs]
    refine inRange_of_bounds (le_trans (by norm_num) hlow) (hhigh.trans ?_)
    norm_num
  obtain ⟨g, hg, -⟩ := (Amount.leaves_leave u.factor
    ("factor of '" ++ u.symbol ++ "' is not representable")).exists_ok hrange.thresholds.2
  exact ⟨g, hg⟩

/-- The price for a unit is finite or not by the size of the exact product of the price per base unit
and the factor, both as doubles. -/
theorem exists_perUnit (y : Finite) (hu : builtin.lookup d symbol = .ok u) :
    ∃ (g : Finite) (z : Binary64), u.factorDouble = .ok g ∧
      perUnit ⟨.finite y, d⟩ symbol = .ok z ∧
      (z.isFinite = true ↔ |y.toRat * g.toRat| < overflowThreshold) := by
  obtain ⟨g, hg⟩ := exists_factorDouble (mem_units_of_find? (lookup_eq_ok_iff.1 hu).1)
  refine ⟨g, (Binary64.finite y).mul (.finite g), hg, ?_, ?_⟩
  · rw [perUnit, bind_of_eq_ok hu, bind_of_eq_ok hg]
    rfl
  · rw [abs_mul, Finite.abs_toRat, Finite.abs_toRat]
    exact (roundsTo_mul y g).isFinite_iff

/-- A price of a known unit is accepted when it is finite. -/
theorem ofPrice_of_lookup (hu : builtin.lookup d symbol = .ok u) (price : Binary64) :
    if price.isFinite = true then ∃ y : Finite, ofPrice d price symbol = .ok ⟨.finite y, d⟩
    else ∃ detail, ofPrice d price symbol = .error (.invalidQuantity detail) := by
  cases price with
  | finite x =>
    obtain ⟨hfound, hd⟩ := lookup_eq_ok_iff.1 hu
    obtain ⟨-, y, hprice, -⟩ := exists_ofPrice hfound hd x
    exact ⟨y, hprice⟩
  | infinite negative =>
    rw [ofPrice, bind_of_eq_ok hu]
    exact ⟨_, rfl⟩
  | nan =>
    rw [ofPrice, bind_of_eq_ok hu]
    exact ⟨_, rfl⟩

/-- What prices come to.  A price of a known unit is refused when it is not finite, and becomes a
finite price per base unit when it is.  A total is the double nearest to the exact product, or
refused as an amount beyond the doubles.  The price for another unit is never refused: it is finite
as long as the product with the factor stays below the overflow threshold, and infinite from there
on. -/
theorem price_outcome (d : Dimension) (price : Binary64) (symbol : String) :
    (∀ u, builtin.lookup d symbol = .ok u →
      if price.isFinite = true then ∃ p, ofPrice d price symbol = .ok p
      else ∃ detail, ofPrice d price symbol = .error (.invalidQuantity detail)) ∧
    ∀ p, ofPrice d price symbol = .ok p →
      ∃ y : Finite, p = ⟨.finite y, d⟩ ∧
        (∀ q : StoredQuantity, q.dimension = d →
          Amount.Leaves (y.writtenValue * q.baseValue.toInt) (p.totalFor q)) ∧
        ∀ (other : String) (v : MeasureUnit), builtin.lookup d other = .ok v →
          ∃ (g : Finite) (z : Binary64), v.factorDouble = .ok g ∧ p.perUnit other = .ok z ∧
            (z.isFinite = true ↔ |y.toRat * g.toRat| < overflowThreshold) := by
  constructor
  · intro u hu
    have hprice := ofPrice_of_lookup hu price
    split at hprice
    · next h =>
      obtain ⟨y, hy⟩ := hprice
      rw [if_pos h]
      exact ⟨_, hy⟩
    · next h => rwa [if_neg h]
  · intro p hp
    cases hlookup : builtin.lookup d symbol with
    | error e =>
      rw [ofPrice, hlookup] at hp
      cases hp
    | ok u =>
      have hprice := ofPrice_of_lookup hlookup price
      rw [hp] at hprice
      split at hprice
      · obtain ⟨y, hy⟩ := hprice
        cases hy
        exact ⟨y, rfl, fun q hq => leaves_totalFor y hq, fun _ _ hv => exists_perUnit y hv⟩
      · obtain ⟨detail, hdetail⟩ := hprice
        cases hdetail

/-- A price of `1e308` a millimetre is a finite price, and the price a kilometre that is worked out
from it is infinite and not refused. -/
theorem perUnit_infinite :
    ∃ p z, ofPrice .length (.finite ⟨false, 5010420900022432, 971, by decide⟩) "mm" = .ok p ∧
      p.perUnit "km" = .ok z ∧ z.isFinite = false := by
  refine ⟨⟨.finite ⟨false, 5010420900022432, 971, by decide⟩, .length⟩, .infinite false, ?_⟩
  decide +kernel

end UnitPrice

end UnitLedger
