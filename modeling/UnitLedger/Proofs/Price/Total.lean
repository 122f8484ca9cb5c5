import UnitLedger.Proofs.Binary64.Order
import UnitLedger.Proofs.Price
set_option autoImplicit false

/-! # Totals are rounded once

The total of a stored quantity is the double nearest to the exact product of the count and the
decimal written for the price, for counts that are no doubles and prices of few bits as well, and it
is refused from the overflow threshold on.  So totals have the order of the counts
(`totalFor_nearest`).
-/

namespace UnitLedger

open Binary64

theorem Amount.Leaves.isRounding {r : Rat} {y : Finite} (h : Amount.Leaves r (.ok y)) :
    y.IsRounding r :=
  ⟨h.rounds.2, fun _ => h.rounds.1⟩

namespace UnitPrice

variable {d : Dimension} {y s t : Finite} {q r : StoredQuantity}

theorem totalFor_of_mismatch (price : Binary64) (h : q.dimension ≠ d) :
    totalFor ⟨price, d⟩ q =
      .error (.dimensionMismatch d.name q.dimension.name q.dimension.baseSymbol) :=
  if_neg h

/-- A total that is not refused is the rounded product. -/
theorem isRounding_of_totalFor (h : totalFor ⟨.finite y, d⟩ q = .ok t) :
    t.IsRounding (y.writtenValue * q.baseValue.toInt) := by
  by_cases hq : q.dimension = d
  · have hleaves := leaves_totalFor y hq
    rw [h] at hleaves
    exact hleaves.isRounding
  · rw [totalFor_of_mismatch _ hq] at h
    cases h

/-- At a price that is not negative more costs no less. -/
theorem totalFor_mono (hy : 0 ≤ y.toRat) (hqr : q.baseValue ≤ r.baseValue)
    (hs : totalFor ⟨.finite y, d⟩ q = .ok s) (ht : totalFor ⟨.finite y, d⟩ r = .ok t) :
    s.toRat ≤ t.toRat := by
  have hprice : 0 ≤ y.writtenValue := by
    have hzero : (zero false).toRat = 0 := by norm_num [zero, Finite.toRat]
    have h := Finite.writtenValue_mono (hzero.trans_le hy)
    rwa [Finite.writtenValue_of_zero rfl] at h
  have hcounts : (q.baseValue.toInt : Rat) ≤ r.baseValue.toInt := by
    exact_mod_cast Int64.le_iff_toInt_le.1 hqr
  exact (isRounding_of_totalFor hs).toRat_mono (isRounding_of_totalFor ht)
    (mul_le_mul_of_nonneg_left hcounts hprice)

/-- A total is the double nearest to the exact product of the decimal written for the price and the
count, the even one of two that are equally near, and an amount is refused exactly where the nearest
double would be infinite.  At a price that is not negative totals have the order of the counts.  A
quantity of another dimension is refused whatever the price. -/
theorem totalFor_nearest (d : Dimension) (y : Finite) :
    (∀ q : StoredQuantity, q.dimension = d →
      (|y.writtenValue * q.baseValue.toInt| < overflowThreshold →
        ∃ total, totalFor ⟨.finite y, d⟩ q = .ok total ∧
          total.IsNearest (y.writtenValue * q.baseValue.toInt)) ∧
      (overflowThreshold ≤ |y.writtenValue * q.baseValue.toInt| →
        ∃ detail, totalFor ⟨.finite y, d⟩ q = .error (.invalidQuantity detail))) ∧
    (0 ≤ y.toRat → ∀ (q r : StoredQuantity) (s t : Finite), q.baseValue ≤ r.baseValue →
      totalFor ⟨.finite y, d⟩ q = .ok s → totalFor ⟨.finite y, d⟩ r = .ok t →
      s.toRat ≤ t.toRat) ∧
    ∀ (price : Binary64) (q : StoredQuantity), q.dimension ≠ d →
      totalFor ⟨price, d⟩ q =
        .error (.dimensionMismatch d.name q.dimension.name q.dimension.baseSymbol) := by
  refine ⟨fun q hq => ⟨fun hfits => ?_, (leaves_totalFor y hq).refused⟩,
    fun hy _ _ _ _ => totalFor_mono hy, fun price _ => totalFor_of_mismatch price⟩
  obtain ⟨total, htotal, -⟩ := (leaves_totalFor y hq).exists_ok hfits
  exact ⟨total, htotal, (isRounding_of_totalFor htotal).isNearest⟩

/-- Three times `2 ^ 53 + 1`, which is no double. -/
theorem totalFor_nearest_beyond_integers :
    totalFor ⟨.finite ⟨false, 6755399441055744, -51, by decide⟩, .count⟩
        ⟨9007199254740993, .count⟩ = .ok ⟨false, 6755399441055745, 2, by decide⟩ ∧
      (⟨false, 6755399441055745, 2, by decide⟩ : Finite).IsNearest
        ((⟨false, 6755399441055744, -51, by decide⟩ : Finite).writtenValue * 9007199254740993) := by
  have hvalue : totalFor ⟨.finite ⟨false, 6755399441055744, -51, by decide⟩, .count⟩
      ⟨9007199254740993, .count⟩ = .ok ⟨false, 6755399441055745, 2, by decide⟩ := by
    decide +kernel
  have hfits : |(⟨false, 6755399441055744, -51, by decide⟩ : Finite).writtenValue *
      (9007199254740993 : Int64).toInt| < overflowThreshold := by
    decide +kernel
  obtain ⟨total, htotal, hnearest⟩ := ((totalFor_nearest .count
    ⟨false, 6755399441055744, -51, by decide⟩).1 ⟨9007199254740993, .count⟩ rfl).1 hfits
  rw [hvalue] at htotal
  exact ⟨hvalue, Except.ok.inj htotal ▸ hnearest⟩

end UnitPrice

end UnitLedger
