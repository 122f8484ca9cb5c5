import UnitLedger.Proofs.Amount
import UnitLedger.Proofs.Binary64.Order
import UnitLedger.Proofs.Decimal.Order
import UnitLedger.Proofs.Quantity.Storing
set_option autoImplicit false

/-! # Storing keeps order and sign

What a value of a unit is stored as is a count (`countOf`), and it is stored exactly when a word
holds the count (`ofValue_eq_ok_iff`).  Writing the decimal, taking the product with the factor and
rounding it each keep the order of values and commute with a change of sign, so counts do
(`countOf_mono`, `countOf_neg`), for the grain as well, whose products are not exact.
-/

namespace UnitLedger.StoredQuantity

open Decimal Exact Registry Binary64

/-- The count of base units that `x` of the unit `u` is rounded to. -/
def countOf (u : MeasureUnit) (x : Finite) : Int := halfAway ((ofFinite x).mul u.factor).toRat

section Counts

variable {u : MeasureUnit} (hu : u ∈ builtin.units) {v w : Finite}

include hu

/-- Larger values have larger counts. -/
theorem countOf_mono (h : v.toRat ≤ w.toRat) : countOf u v ≤ countOf u w := by
  have hwritten := Finite.writtenValue_mono h
  rw [← toRat_ofFinite, ← toRat_ofFinite] at hwritten
  have hprec := (ofFinite_precision v).trans (ofFinite_precision w).symm
  have hmax := (max_precision hu w).trans_ne (show workingPrecision ≠ 0 by decide)
  exact halfAway_mono (toRat_mul_mono hprec hmax (factor_pos hu).le hwritten)

/-- The count of the opposite value is the opposite count. -/
theorem countOf_neg (v : Finite) : countOf u v.neg = -countOf u v := by
  have hwritten : (ofFinite v.neg).toRat = -(ofFinite v).toRat := by
    rw [toRat_ofFinite, toRat_ofFinite, v.writtenValue_neg]
  have hprec := (ofFinite_precision v.neg).trans (ofFinite_precision v).symm
  have hmax := (max_precision hu v).trans_ne (show workingPrecision ≠ 0 by decide)
  rw [countOf, toRat_mul_of_eq_neg hprec hmax hwritten, halfAway_neg, countOf]

end Counts

/-! ## Accepted values -/

variable {d : Dimension} {symbol : String} {u : MeasureUnit} {a b : StoredQuantity}

/-- A value is stored as a quantity just when that has the count of the value. -/
theorem ofValue_eq_ok_iff (hu : builtin.lookup d symbol = .ok u) (x : Finite) :
    ofValue d (.finite x) symbol = .ok a ↔
      a.dimension = d ∧ a.baseValue.toInt = countOf u x := by
  obtain ⟨hfound, hd⟩ := lookup_eq_ok_iff.1 hu
  have hstores := stores_mul hfound hd x
  constructor
  · intro h
    rw [h] at hstores
    exact hstores.of_ok
  · rintro ⟨rfl, hcount⟩
    rw [← countOf, ← hcount] at hstores
    exact hstores.eq_ok

/-- Only values of a unit of the dimension are stored. -/
theorem exists_lookup_of_ofValue {x : Binary64} (h : ofValue d x symbol = .ok a) :
    ∃ u, builtin.lookup d symbol = .ok u := by
  unfold ofValue at h
  obtain ⟨u, hu, -⟩ := exists_of_bind_eq_ok h
  exact ⟨u, hu⟩

/-- Every value between two that are stored is stored, between their counts. -/
theorem exists_ofValue_between {v w x : Finite} (hvx : v.toRat ≤ x.toRat) (hxw : x.toRat ≤ w.toRat)
    (ha : ofValue d (.finite v) symbol = .ok a) (hb : ofValue d (.finite w) symbol = .ok b) :
    ∃ c, ofValue d (.finite x) symbol = .ok c ∧ a.baseValue ≤ c.baseValue ∧
      c.baseValue ≤ b.baseValue := by
  obtain ⟨u, hu⟩ := exists_lookup_of_ofValue ha
  obtain ⟨hfound, hd⟩ := lookup_eq_ok_iff.1 hu
  have hmem := mem_units_of_find? hfound
  have hlow := ((ofValue_eq_ok_iff hu v).1 ha).2.trans_le (countOf_mono hmem hvx)
  have hhigh := (countOf_mono hmem hxw).trans_eq ((ofValue_eq_ok_iff hu w).1 hb).2.symm
  -- a count between two words is a word
  have hleast : -2 ^ 63 ≤ a.baseValue.toInt := Int64.le_toInt _
  have hmost : b.baseValue.toInt < 2 ^ 63 := Int64.toInt_lt _
  have hstores := stores_mul hfound hd x
  rw [← countOf, Stores, if_pos ⟨by omega, by omega⟩] at hstores
  obtain ⟨word, hword, hok⟩ := hstores
  rw [← hword] at hlow hhigh
  exact ⟨_, hok, Int64.le_iff_toInt_le.2 hlow, Int64.le_iff_toInt_le.2 hhigh⟩

/-- Storing keeps order and sign: of two values of a unit the larger one is not stored as less, all
values between them are stored between them, and the opposite value, if it is stored, is stored as
the opposite count. -/
theorem ofValue_order_and_sign {v w : Finite} (hvw : v.toRat ≤ w.toRat)
    (ha : ofValue d (.finite v) symbol = .ok a) (hb : ofValue d (.finite w) symbol = .ok b) :
    a.baseValue ≤ b.baseValue ∧
      (∀ x : Finite, v.toRat ≤ x.toRat → x.toRat ≤ w.toRat →
        ∃ c, ofValue d (.finite x) symbol = .ok c ∧ a.baseValue ≤ c.baseValue ∧
          c.baseValue ≤ b.baseValue) ∧
      ∀ c, ofValue d (.finite v.neg) symbol = .ok c →
        c.baseValue.toInt = -a.baseValue.toInt := by
  refine ⟨?_, fun x hvx hxw => exists_ofValue_between hvx hxw ha hb, fun c hc => ?_⟩
  · obtain ⟨c, hc, hac, -⟩ := exists_ofValue_between hvw le_rfl ha hb
    rw [hb] at hc
    exact Except.ok.inj hc ▸ hac
  · obtain ⟨u, hu⟩ := exists_lookup_of_ofValue ha
    have hmem := mem_units_of_find? (lookup_eq_ok_iff.1 hu).1
    rw [((ofValue_eq_ok_iff hu _).1 hc).2, countOf_neg hmem, ((ofValue_eq_ok_iff hu _).1 ha).2]

/-- From minus to plus 150000 grains, whose exact amounts lie half way between two counts. -/
theorem ofValue_order_and_sign_grains :
    (⟨true, 5153960755200000, -35, by decide⟩ : Finite).toRat ≤
        (⟨false, 5153960755200000, -35, by decide⟩ : Finite).toRat ∧
      ofValue .weight (.finite ⟨true, 5153960755200000, -35, by decide⟩) "gr" =
        .ok ⟨-9719836, .weight⟩ ∧
      ofValue .weight (.finite ⟨false, 5153960755200000, -35, by decide⟩) "gr" =
        .ok ⟨9719836, .weight⟩ ∧
      ∀ x : Finite, (⟨true, 5153960755200000, -35, by decide⟩ : Finite).toRat ≤ x.toRat →
        x.toRat ≤ (⟨false, 5153960755200000, -35, by decide⟩ : Finite).toRat →
        ∃ c, ofValue .weight (.finite x) "gr" = .ok c ∧ -9719836 ≤ c.baseValue ∧
          c.baseValue ≤ 9719836 := by
  have horder : (⟨true, 5153960755200000, -35, by decide⟩ : Finite).toRat ≤
      (⟨false, 5153960755200000, -35, by decide⟩ : Finite).toRat := by
    decide +kernel
  have hlow : ofValue .weight (.finite ⟨true, 5153960755200000, -35, by decide⟩) "gr" =
      .ok ⟨-9719836, .weight⟩ := by
    decide +kernel
  have hhigh : ofValue .weight (.finite ⟨false, 5153960755200000, -35, by decide⟩) "gr" =
      .ok ⟨9719836, .weight⟩ := by
    decide +kernel
  exact ⟨horder, hlow, hhigh, (ofValue_order_and_sign horder hlow hhigh).2.1⟩

end UnitLedger.StoredQuantity
