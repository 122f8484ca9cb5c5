import UnitLedger.Quantity
import UnitLedger.Proofs.Decimal.Binary
import UnitLedger.Proofs.Decimal.Integer
import UnitLedger.Proofs.Registry
set_option autoImplicit false

/-! # Storing values

A value is stored as the product of the decimal written for it and the factor of its unit, rounded
once (`stores_mul`).  The product is exact for every unit whose factor leaves room for the seventeen
digits of a double, which is every unit but the grain (`ofValue_stores_exact`).
-/

namespace UnitLedger

open Decimal Exact Registry

/-! ## Rounding to a word -/

/-- The outcome of rounding to the integer `n`: the word of `n`, or a refusal when there is none. -/
theorem roundToInteger_of_halfAway {x : Decimal} (hlen : x.length ≤ workingPrecision)
    (hprec : x.precision = workingPrecision) {n : Int} (hn : halfAway x.toRat = n) :
    if -2 ^ 63 ≤ n ∧ n ≤ 2 ^ 63 - 1 then ∃ w : Int64, w.toInt = n ∧ Amount.roundToInteger x = .ok w
    else Amount.roundToInteger x =
      .error (.invalidQuantity (x.text ++ " is outside the storable range")) := by
  have hround := toRat_roundHalfAway hlen (Or.inr (hlen.trans_eq hprec.symm))
  have hword := toInt64?_of_toRat hround
  rw [hn] at hword
  unfold Amount.roundToInteger
  rw [hword]
  cases hs : storable? n with
  | some w =>
    have hw := (storable?_eq_some_iff n w).1 hs
    have hlow : -2 ^ 63 ≤ w.toInt := Int64.le_toInt w
    have hhigh : w.toInt < 2 ^ 63 := Int64.toInt_lt w
    rw [if_pos (by omega)]
    exact ⟨w, hw, rfl⟩
  | none =>
    have hout : ¬ (-2 ^ 63 ≤ n ∧ n < 2 ^ 63) := by
      intro hin
      rw [storable?, if_pos hin] at hs
      exact Option.some_ne_none _ hs
    rw [if_neg (by omega)]

/-! ## Storing a value -/

namespace StoredQuantity

/-- The outcome `r` of storing `n` base units of the dimension `d`: the quantity when a signed
64-bit word holds the count, and otherwise a refusal of the amount. -/
def Stores (d : Dimension) (n : Int) (r : Except UnitError StoredQuantity) : Prop :=
  if -2 ^ 63 ≤ n ∧ n ≤ 2 ^ 63 - 1 then ∃ w : Int64, w.toInt = n ∧ r = .ok ⟨w, d⟩
  else ∃ detail, r = .error (.invalidQuantity detail)

variable {d : Dimension} {symbol : String} {u : MeasureUnit}

/-- Storing what fits gives the quantity of that count. -/
theorem Stores.eq_ok {q : StoredQuantity} {r : Except UnitError StoredQuantity}
    (h : Stores q.dimension q.baseValue.toInt r) : r = .ok q := by
  have hlow : -2 ^ 63 ≤ q.baseValue.toInt := Int64.le_toInt _
  have hhigh : q.baseValue.toInt < 2 ^ 63 := Int64.toInt_lt _
  rw [Stores, if_pos ⟨hlow, by omega⟩] at h
  obtain ⟨w, hw, hr⟩ := h
  rw [hr, Int64.toInt_inj.1 hw]

/-- What is stored is the quantity of that count. -/
theorem Stores.of_ok {n : Int} {q : StoredQuantity} (h : Stores d n (.ok q)) :
    q.dimension = d ∧ q.baseValue.toInt = n := by
  unfold Stores at h
  split at h
  · obtain ⟨w, hw, hq⟩ := h
    rw [Except.ok.inj hq]
    exact ⟨rfl, hw⟩
  · obtain ⟨detail, hdetail⟩ := h
    cases hdetail

/-- A count beyond all words is refused, whichever it is. -/
theorem Stores.refused {n : Int} {r : Except UnitError StoredQuantity}
    (hout : (10 : Rat) ^ 20 ≤ |(n : Rat)|) :
    Stores d n r ↔ ∃ detail, r = .error (.invalidQuantity detail) := by
  have hcast : (10 : Int) ^ 20 ≤ |n| := by exact_mod_cast hout
  unfold Stores
  rw [if_neg]
  rintro ⟨hlow, hhigh⟩
  have : |n| ≤ 2 ^ 63 := abs_le.2 ⟨hlow, by omega⟩
  omega

/-! ## The product with the factor -/

theorem max_precision (hu : u ∈ builtin.units) (x : Binary64.Finite) :
    max (ofFinite x).precision u.factor.precision = workingPrecision := by
  rw [ofFinite_precision, factor_precision u hu, Nat.max_self]

theorem length_mul_factor_le (hu : u ∈ builtin.units) (x : Binary64.Finite) :
    ((ofFinite x).mul u.factor).length ≤ workingPrecision := by
  rw [Decimal.mul, max_precision hu]
  exact length_rounded_le _ _ (by decide)

/-- What is stored is the rounded product of the decimal written for the value and the factor. -/
theorem stores_mul (hu : builtin.find? symbol = some u) (hd : u.dimension = d)
    (x : Binary64.Finite) :
    Stores d (halfAway ((ofFinite x).mul u.factor).toRat) (ofValue d (.finite x) symbol) := by
  have hmem := mem_units_of_find? hu
  have hprec := (mul_precision (ofFinite x) u.factor).trans (max_precision hmem x)
  have hround := roundToInteger_of_halfAway (length_mul_factor_le hmem x) hprec rfl
  have hlookup : builtin.lookup d symbol = .ok u := lookup_eq_ok_iff.2 ⟨hu, hd⟩
  have hvalue : ofValue d (.finite x) symbol =
      (Amount.roundToInteger ((ofFinite x).mul u.factor)).map fun w => ⟨w, d⟩ := by
    unfold ofValue Amount.enter MeasureUnit.toBase
    rw [hlookup]
    rfl
  unfold Stores
  rw [hvalue]
  split at hround
  · next hin =>
    obtain ⟨w, hw, hok⟩ := hround
    rw [if_pos hin, hok]
    exact ⟨w, hw, rfl⟩
  · next hout =>
    rw [if_neg hout, hround]
    exact ⟨_, rfl⟩

/-- A product with the factor of a unit other than the grain has no more than fifty digits. -/
theorem toRat_mul_factor (hu : u ∈ builtin.units) (hgrain : u.symbol ≠ "gr")
    (x : Binary64.Finite) :
    ((ofFinite x).mul u.factor).toRat = x.writtenValue * u.factor.toRat := by
  have hfactor := (length_le_iff_keeps u.factor (by decide)).1 (length_factor_le u hu hgrain)
  have hkeeps := x.keeps_writtenValue.mul hfactor (by decide) (by decide)
  rw [← toRat_ofFinite] at hkeeps ⊢
  apply toRat_mul_of_keeps
  rwa [max_precision hu]

/-- Storing is exact with a single rounding for every unit but the grain: the count is the written
value times the factor that the tables define, rounded to the nearest integer with a half going away
from zero. -/
theorem ofValue_stores_exact {f : Rat} (hu : builtin.find? symbol = some u) (hd : u.dimension = d)
    (hgrain : u.symbol ≠ "gr") (hf : exactFactor? u.symbol = some f) (x : Binary64.Finite) :
    Stores d (halfAway (x.writtenValue * f)) (ofValue d (.finite x) symbol) := by
  have hmem := mem_units_of_find? hu
  have hfactor : u.factor.toRat = f := by
    have heq := factor_eq_exactFactor u hmem hgrain
    rw [hf] at heq
    exact (Option.some.inj heq).symm
  rw [← hfactor, ← toRat_mul_factor hmem hgrain]
  exact stores_mul hu hd x

/-- Minus twelve and a half inches are 317.5 millimetres, a tie that goes away from zero. -/
theorem ofValue_stores_exact_inches :
    halfAway ((⟨true, 7036874417766400, -49, by decide⟩ : Binary64.Finite).writtenValue * (127 / 5))
        = -318 ∧
      Stores .length
        (halfAway ((⟨true, 7036874417766400, -49, by decide⟩ : Binary64.Finite).writtenValue *
          (127 / 5)))
        (ofValue .length (.finite ⟨true, 7036874417766400, -49, by decide⟩) " Inches") :=
  ⟨by decide +kernel,
    ofValue_stores_exact (u := ⟨"in", "inch", .length, .imperial, ⟨254, -1, 50, by decide⟩⟩)
      (by decide +kernel) rfl (by decide) (by decide +kernel) _⟩

end StoredQuantity

end UnitLedger
