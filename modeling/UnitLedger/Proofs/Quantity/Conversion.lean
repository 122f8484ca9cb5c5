import UnitLedger.Proofs.Quantity.Grain
import UnitLedger.Proofs.Quantity.Showing
set_option autoImplicit false

/-! # Converted values

A converted value goes through a product and a quotient at fifty digits (`exists_convertTo_builtin`) and
leaves as a double, or is refused beyond the doubles.  Whether it is refused can be told from the
exact value: for every pair of units, the values that convert to the overflow threshold are apart
from all decimals of seventeen digits by more than the computed value is off (`isClear_builtin`), so
both lie on the same side of it (`lt_overflowThreshold_iff`).
-/

namespace UnitLedger

open Numeral Decimal Exact Registry Binary64

namespace Registry

/-- The value in a unit of factor `a` that is the overflow threshold in a unit of factor `b`, in
steps of `10 ^ 280`. -/
def border (a b : Rat) : Rat := overflowThreshold / 10 ^ 280 * (b / a)

/-- The border is some way up, and there is no whole number of steps within a part in `10 ^ 47`
of it. -/
def IsClear (a b : Rat) : Prop :=
  10 ^ 16 ≤ border a b * (1 - 1 / 10 ^ 47) ∧
    ((border a b * (1 + 1 / 10 ^ 47)).floor : Rat) < border a b * (1 - 1 / 10 ^ 47)

instance (a b : Rat) : Decidable (IsClear a b) := inferInstanceAs (Decidable (_ ∧ _))

theorem isClear_builtin : ∀ a ∈ exactFactors, ∀ b ∈ exactFactors, IsClear a.2 b.2 := by
  decide +kernel

theorem isClear_of_exactFactor {s t : String} {a b : Rat} (ha : exactFactor? s = some a)
    (hb : exactFactor? t = some b) : IsClear a b := by
  have hmem : ∀ {symbol : String} {f : Rat}, exactFactor? symbol = some f →
      (symbol, f) ∈ exactFactors := by
    intro symbol f h
    obtain ⟨before, after, heq, -⟩ := List.lookup_eq_some_iff.1 h
    rw [heq]
    exact List.mem_append_right _ List.mem_cons_self
  exact isClear_builtin _ (hmem ha) _ (hmem hb)

/-- A decimal of seventeen digits that converts to no less than a little below the threshold
converts to more than a little above it. -/
theorem IsClear.above_threshold {a b v : Rat} (h : IsClear a b) (ha : 0 < a) (hb : 0 < b)
    (hv : Keeps 17 v) (hlow : overflowThreshold * (1 - 1 / 10 ^ 47) ≤ |v * a / b|) :
    overflowThreshold * (1 + 1 / 10 ^ 47) < |v * a / b| := by
  obtain ⟨hfar, hgap⟩ := h
  have hratio : 0 < a / b := div_pos ha hb
  have hthreshold : overflowThreshold = border a b * 10 ^ 280 * (a / b) := by
    unfold border
    field_simp
  have hvalue : |v * a / b| = |v| * (a / b) := by
    rw [mul_div_assoc, abs_mul, abs_of_pos hratio]
  have hkeeps : Keeps 17 |v| := by
    rcases abs_choice v with habs | habs <;> rw [habs]
    · exact hv
    · exact hv.neg
  rw [hthreshold, hvalue, mul_right_comm] at hlow ⊢
  have hlow' := le_of_mul_le_mul_right hlow hratio
  refine mul_lt_mul_of_pos_right ?_ hratio
  generalize border a b = edge at *
  have hstart : (10 : Rat) ^ ((297 : Int) - 1) = 10 ^ 16 * 10 ^ 280 := by
    rw [← pow_add]
    rfl
  have hunit : (10 : Rat) ^ ((297 : Int) - (17 : Nat)) = 10 ^ 280 := rfl
  have hstep : (0 : Rat) < 10 ^ 280 := by positivity
  generalize (10 : Rat) ^ 280 = step at hlow' hstart hunit hstep ⊢
  have hfar' := mul_le_mul_of_nonneg_right hfar hstep.le
  rw [mul_right_comm] at hfar'
  -- so far up the decimals are whole numbers of steps
  obtain ⟨k, hk⟩ := hkeeps.exists_mul_zpow (k := 297) (by decide) (by
    rw [hstart]
    exact hfar'.trans hlow')
  rw [hunit] at hk
  rw [hk, mul_right_comm] at hlow' ⊢
  refine mul_lt_mul_of_pos_right ?_ hstep
  have hcast : ((edge * (1 + 1 / 10 ^ 47)).floor : Rat) < ((k : Int) : Rat) :=
    hgap.trans_le (le_of_mul_le_mul_right hlow' hstep)
  have hlt : ⌊edge * (1 + 1 / 10 ^ 47)⌋ < (k : Int) := Int.cast_lt.1 hcast
  exact_mod_cast Int.floor_lt.1 hlt

/-- A number near the exact value of a conversion is below the threshold when that is. -/
theorem IsClear.lt_overflowThreshold_iff {a b v z : Rat} (h : IsClear a b) (ha : 0 < a)
    (hb : 0 < b) (hv : Keeps 17 v) (hz : Near (1 / 10 ^ 48) z (v * a / b)) :
    |z| < overflowThreshold ↔ |v * a / b| < overflowThreshold := by
  have habove := h.above_threshold ha hb hv
  have hpos := overflowThreshold_pos
  have hdown := abs_sub_abs_le_abs_sub (v * a / b) z
  have hup := abs_sub_abs_le_abs_sub z (v * a / b)
  rw [abs_sub_comm] at hdown
  unfold Near at hz
  constructor
  · intro hlt
    by_contra hge
    have hfar := habove (by linarith)
    linarith
  · intro hlt
    by_contra hge
    have hfar := habove (by linarith)
    linarith

end Registry

namespace MeasureUnit

/-- The converted value is near the one by the factors that the tables define. -/
theorem exists_convertTo_builtin {u t : MeasureUnit} {a b : Rat} (hu : u ∈ builtin.units)
    (ht : t ∈ builtin.units) (hd : u.dimension = t.dimension) (ha : exactFactor? u.symbol = some a)
    (hb : exactFactor? t.symbol = some b) (x : Finite) :
    ∃ z, u.convertTo (ofFinite x) t = .ok z ∧
      Near (1 / 10 ^ 48) z.toRat (x.writtenValue * a / b) := by
  obtain ⟨z, hz, -, hnear⟩ :=
    exists_convertTo_near hd (factor_pos ht).ne' (ofFinite_precision x).ge
  rw [toRat_ofFinite] at hnear
  have hsource := (near_factor hu ha).mul_right (x.writtenValue / t.factor.toRat)
  rw [← mul_div_assoc, ← mul_div_assoc, mul_comm _ x.writtenValue, mul_comm a] at hsource
  have htarget := near_div_factor ht hb (x.writtenValue * a)
  exact ⟨z, hz, ((hnear.trans hsource (by norm_num)).trans htarget (by norm_num)).mono
    (by norm_num)⟩

end MeasureUnit

/-- A conversion between units of the dimension hands out a number near the exact value. -/
theorem exists_convert {d : Dimension} {source target : String} {u t : MeasureUnit} {a b : Rat}
    (hu : builtin.lookup d source = .ok u) (ht : builtin.lookup d target = .ok t)
    (ha : exactFactor? u.symbol = some a) (hb : exactFactor? t.symbol = some b) (x : Finite) :
    ∃ z, Amount.Leaves z (convert d (.finite x) source target) ∧
      Near (1 / 10 ^ 48) z (x.writtenValue * a / b) := by
  obtain ⟨hfound, hd⟩ := lookup_eq_ok_iff.1 hu
  obtain ⟨hfound', hd'⟩ := lookup_eq_ok_iff.1 ht
  obtain ⟨z, hz, hnear⟩ := MeasureUnit.exists_convertTo_builtin (mem_units_of_find? hfound)
    (mem_units_of_find? hfound') (hd.trans hd'.symm) ha hb x
  have henter : Amount.enter (.finite x) = .ok (ofFinite x) := rfl
  refine ⟨z.toRat, ?_, hnear⟩
  rw [convert, bind_of_eq_ok hu, bind_of_eq_ok (resolveFor_eq_ok_iff.2 ht), bind_of_eq_ok henter,
    bind_of_eq_ok hz]
  exact Amount.leaves_leave z _

end UnitLedger
