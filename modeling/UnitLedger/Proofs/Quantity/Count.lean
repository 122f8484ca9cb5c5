import UnitLedger.Proofs.Quantity.Grain
import Mathlib.RingTheory.Coprime.Lemmas
set_option autoImplicit false

/-! # Counts of base units

Whatever the unit, the count that a value is stored as is within one half of the exact amount
(`exists_count`).  Where a count of grains slips at a tie it is the other of the two nearest
integers, and as near.  The slip does not decide whether a word holds the count, because no tie of
grains lies at the end of the words.
-/

namespace UnitLedger

open Numeral Decimal Exact Registry

namespace Exact

/-- At a tie the integer away from zero has the sign of the number and is one half from it. -/
theorem IsTie.sides {r : Rat} (htie : IsTie r) :
    0 < halfAway r ∧ (halfAway r : Rat) = r + 1 / 2 ∨
      halfAway r < 0 ∧ (halfAway r : Rat) = r - 1 / 2 := by
  have hpos : ∀ {s : Rat}, 0 ≤ s → IsTie s → 0 < halfAway s ∧ (halfAway s : Rat) = s + 1 / 2 := by
    intro s hs htie
    have hround := htie.halfAway_eq hs
    have hcast : (0 : Rat) < halfAway s := by linarith
    exact ⟨by exact_mod_cast hcast, hround⟩
  rcases le_total 0 r with h | h
  · exact Or.inl (hpos h htie)
  · obtain ⟨hone, hround⟩ := hpos (neg_nonneg.2 h) ((isTie_neg r).2 htie)
    rw [halfAway_neg] at hone hround
    push_cast at hround
    exact Or.inr ⟨by omega, by linarith⟩

/-- At a tie the integer on the side of zero is one half away as well. -/
theorem IsTie.abs_sub_sign {r : Rat} (htie : IsTie r) :
    |((halfAway r - (halfAway r).sign : Int) : Rat) - r| = 1 / 2 := by
  rcases htie.sides with ⟨hsign, hround⟩ | ⟨hsign, hround⟩
  · have hdiff : ((halfAway r - 1 : Int) : Rat) - r = -(1 / 2) := by
      push_cast
      linarith
    rw [Int.sign_eq_one_of_pos hsign, hdiff, abs_neg, abs_of_pos (by norm_num)]
  · have hdiff : ((halfAway r - -1 : Int) : Rat) - r = 1 / 2 := by
      push_cast
      linarith
    rw [Int.sign_eq_neg_one_of_neg hsign, hdiff, abs_of_pos (by norm_num)]

end Exact

namespace StoredQuantity

/-- A signed 64-bit word holds the count. -/
def IsStorable (n : Int) : Prop := -2 ^ 63 ≤ n ∧ n ≤ 2 ^ 63 - 1

instance : DecidablePred IsStorable := fun _ => inferInstanceAs (Decidable (_ ∧ _))

theorem exists_toInt_iff (n : Int) : (∃ w : Int64, w.toInt = n) ↔ IsStorable n := by
  constructor
  · rintro ⟨w, rfl⟩
    have hlow : -2 ^ 63 ≤ w.toInt := Int64.le_toInt w
    have hhigh : w.toInt < 2 ^ 63 := Int64.toInt_lt w
    exact ⟨hlow, by omega⟩
  · rintro ⟨hlow, hhigh⟩
    exact ⟨Int64.ofInt n, Int64.toInt_ofInt_of_le hlow (by omega)⟩

/-- The word of `n` has a property of values exactly if `n` has it and is storable. -/
theorem exists_toInt_eq_iff {p : Int64 → Prop} {q : Int → Prop} (h : ∀ w, p w ↔ q w.toInt)
    (n : Int) : (∃ w : Int64, w.toInt = n ∧ p w) ↔ q n ∧ IsStorable n := by
  rw [← exists_toInt_iff]
  constructor
  · rintro ⟨w, rfl, hw⟩
    exact ⟨(h w).1 hw, w, rfl⟩
  · rintro ⟨hvalue, w, rfl⟩
    exact ⟨w, rfl, (h w).2 hvalue⟩

/-! ## Ties of grains -/

/-- Eleven divides the numerator of the factor of the grain, and no power of ten. -/
theorem twice_grains_ne (y : Decimal) {c : Int} (hc : ¬ 11 ∣ c) :
    2 * (y.toRat * (6479891 / 100000)) ≠ c := by
  intro heq
  rw [toRat, zpow_eq_div_pow_toNat] at heq
  field_simp at heq
  have hint : 2 * y.significand * 10 ^ y.exponent.toNat * 6479891 =
      10 ^ (-y.exponent).toNat * 10 ^ 5 * c := by
    exact_mod_cast heq
  have hcoprime : IsCoprime (11 : Int) (10 ^ (-y.exponent).toNat * 10 ^ 5) := by
    rw [← pow_add]
    exact IsCoprime.pow_right ⟨1, -1, by norm_num⟩
  refine hc (hcoprime.dvd_of_dvd_mul_left ⟨2 * y.significand * 10 ^ y.exponent.toNat * 589081, ?_⟩)
  rw [← hint]
  ring

/-- At a tie of grains either both of the nearest integers fit a word or neither does. -/
theorem isStorable_slipped_iff {y : Decimal} (htie : IsTie (y.toRat * (6479891 / 100000))) :
    IsStorable (halfAway (y.toRat * (6479891 / 100000)) -
        (halfAway (y.toRat * (6479891 / 100000))).sign) ↔
      IsStorable (halfAway (y.toRat * (6479891 / 100000))) := by
  have htop := twice_grains_ne y (c := 2 ^ 64 - 1) (by decide)
  have hbottom := twice_grains_ne y (c := -2 ^ 64 - 1) (by decide)
  generalize y.toRat * (6479891 / 100000 : Rat) = r at *
  unfold IsStorable
  rcases htie.sides with ⟨hsign, hround⟩ | ⟨hsign, hround⟩
  · have hne : halfAway r ≠ 2 ^ 63 := by
      intro heq
      rw [heq] at hround
      push_cast at hround htop
      exact htop (by linarith)
    rw [Int.sign_eq_one_of_pos hsign]
    omega
  · have hne : halfAway r ≠ -2 ^ 63 - 1 := by
      intro heq
      rw [heq] at hround
      push_cast at hround hbottom
      exact hbottom (by linarith)
    rw [Int.sign_eq_neg_one_of_neg hsign]
    omega

/-! ## The count -/

/-- Every finite value has a count that its storing goes by: it is within one half of the exact
amount, and it fits a word when the amount rounded half away from zero does. -/
theorem exists_count {d : Dimension} {symbol : String} {u : MeasureUnit} {f : Rat}
    (hu : builtin.find? symbol = some u) (hd : u.dimension = d)
    (hf : exactFactor? u.symbol = some f) (x : Binary64.Finite) :
    ∃ n : Int, Stores d n (ofValue d (.finite x) symbol) ∧
      |n - x.writtenValue * f| ≤ 1 / 2 ∧
      (IsStorable n ↔ IsStorable (halfAway (x.writtenValue * f))) := by
  have hmem := mem_units_of_find? hu
  have hstores := stores_mul hu hd x
  rcases factor_cases hmem hf with ⟨hgrain, hfactor⟩ | ⟨hfactor, rfl⟩
  · rw [toRat_mul_factor hmem hgrain, hfactor] at hstores
    refine ⟨_, hstores, ?_, Iff.rfl⟩
    rw [abs_sub_comm]
    exact abs_sub_halfAway_le _
  · rw [hfactor] at hstores
    have hslip := stores_of_mul_grainFactor (length_ofFinite_le x) (ofFinite_precision x) hstores
    rw [← toRat_ofFinite]
    refine ⟨_, hslip, ?_⟩
    split
    · next hslips => exact ⟨hslips.1.abs_sub_sign.le, isStorable_slipped_iff hslips.1⟩
    · rw [sub_zero, abs_sub_comm]
      exact ⟨abs_sub_halfAway_le _, Iff.rfl⟩

/-- What is stored is within one half of the exact amount. -/
theorem ofValue_near {d : Dimension} {symbol : String} {u : MeasureUnit} {f : Rat}
    (hu : builtin.find? symbol = some u) (hd : u.dimension = d)
    (hf : exactFactor? u.symbol = some f) {x : Binary64.Finite} {q : StoredQuantity}
    (h : ofValue d (.finite x) symbol = .ok q) :
    q.dimension = d ∧ |q.baseValue.toInt - x.writtenValue * f| ≤ 1 / 2 := by
  obtain ⟨n, hstores, hnear, -⟩ := exists_count hu hd hf x
  rw [h] at hstores
  obtain ⟨hdimension, hcount⟩ := hstores.of_ok
  rw [hcount]
  exact ⟨hdimension, hnear⟩

end StoredQuantity

end UnitLedger
