import UnitLedger.Amount
import UnitLedger.Proofs.Decimal.Binary
import UnitLedger.Proofs.Exact
set_option autoImplicit false

/-! # Amounts that leave

An amount leaves as the double it is rounded to, and from the overflow threshold on it is refused
(`leaves_leave`).  Unless it is very small, the double is off by less than a part in `2 ^ 52`
(`Leaves.near_toRat`) and the decimal that is written for the double by less than a part in `2 ^ 51`
(`Leaves.near_writtenValue`).
-/

namespace UnitLedger

open Binary64 Exact

/-- A computation goes on with the result of its first step. -/
theorem bind_of_eq_ok {ε α β : Type} {r : Except ε α} {a : α} (h : r = .ok a)
    (f : α → Except ε β) : r >>= f = f a := by
  rw [h]
  rfl

/-- A computation that succeeds goes through a result of its first step. -/
theorem exists_of_bind_eq_ok {ε α β : Type} {r : Except ε α} {f : α → Except ε β} {b : β}
    (h : r >>= f = .ok b) : ∃ a, r = .ok a ∧ f a = .ok b := by
  cases r with
  | error e => cases h
  | ok a => exact ⟨a, rfl, h⟩

/-- A magnitude with the sign of `r` is as far from `r` as it is from the magnitude of `r`. -/
theorem abs_signed_sub {negative : Bool} {r : Rat} (h : negative = true ↔ r < 0) (a : Rat) :
    |(if negative then -1 else 1) * a - r| = abs (a - |r|) := by
  by_cases hr : r < 0
  · have hneg : a - |r| = -(-1 * a - r) := by
      rw [abs_of_neg hr]
      ring
    rw [if_pos (h.2 hr), hneg, abs_neg]
  · rw [if_neg fun hc => hr (h.1 hc), one_mul, abs_of_nonneg (not_lt.1 hr)]

namespace Amount

/-- The outcome of handing out the number `r` as a double: the double of its sign that it is rounded
to, or a refusal of the amount where that is infinite. -/
def Leaves (r : Rat) (outcome : Except UnitError Finite) : Prop :=
  if |r| < overflowThreshold then
    ∃ y : Finite, outcome = .ok y ∧ (y.negative = true ↔ r < 0) ∧ y.Rounds |r|
  else ∃ detail, outcome = .error (.invalidQuantity detail)

/-- Amounts leave as their value says. -/
theorem leaves_leave (x : Decimal) (detail : String) : Leaves x.toRat (leave x detail) := by
  have hrounds := x.roundsTo_toBinary64
  unfold Leaves leave Decimal.toFinite?
  rcases lt_or_ge |x.toRat| overflowThreshold with hlt | hge
  · obtain ⟨y, hy, hsign, hround⟩ := hrounds.exists_finite hlt
    rw [if_pos hlt, hy]
    exact ⟨y, rfl, hsign ▸ x.isNegative_iff, hround⟩
  · rw [if_neg (not_lt.2 hge), hrounds.eq_infinite hge]
    exact ⟨detail, rfl⟩

namespace Leaves

variable {r : Rat} {outcome : Except UnitError Finite} {y : Finite}

theorem exists_ok (h : Leaves r outcome) (hr : |r| < overflowThreshold) :
    ∃ y : Finite, outcome = .ok y ∧ (y.negative = true ↔ r < 0) ∧ y.Rounds |r| := by
  rwa [Leaves, if_pos hr] at h

theorem refused (h : Leaves r outcome) (hr : overflowThreshold ≤ |r|) :
    ∃ detail, outcome = .error (.invalidQuantity detail) := by
  rwa [Leaves, if_neg (not_lt.2 hr)] at h

/-- An amount that left was not beyond the doubles. -/
theorem rounds (h : Leaves r (.ok y)) : (y.negative = true ↔ r < 0) ∧ y.Rounds |r| := by
  rcases lt_or_ge |r| overflowThreshold with hlt | hge
  · obtain ⟨z, hz, hspec⟩ := h.exists_ok hlt
    rw [Except.ok.inj hz]
    exact hspec
  · obtain ⟨detail, hdetail⟩ := h.refused hge
    cases hdetail

/-- The double is off by half a unit of its last bit at most. -/
theorem near_toRat (h : Leaves r (.ok y)) (hr : normalThreshold ≤ |r|) :
    Near (1 / (2 ^ 53 - 1)) y.toRat r := by
  obtain ⟨hsign, hround⟩ := h.rounds
  rw [Near, Finite.toRat_eq, abs_signed_sub hsign, abs_sub_comm, mul_one_div]
  exact (hround.abs_sub_le (abs_nonneg r)).trans (hround.half_unit_le hr)

theorem significand_eq_zero (h : Leaves 0 (.ok y)) : y.significand = 0 := by
  by_contra hne
  have hpos := Finite.pos_of_contains hne (h.rounds.2.contains hne)
  rw [abs_zero] at hpos
  exact lt_irrefl _ hpos

/-- The decimal that is written for the double is rounded to it as well, so it is off by a unit of
the last bit at most. -/
theorem near_writtenValue (h : Leaves r (.ok y)) (hr : normalThreshold ≤ |r|) :
    Near (2 / (2 ^ 53 - 1)) y.writtenValue r := by
  obtain ⟨hsign, hround⟩ := h.rounds
  rw [Near, Finite.writtenValue_eq, abs_signed_sub hsign, ← Finite.abs_writtenValue]
  have hwritten := y.rounds_writtenValue.abs_sub_le (abs_nonneg _)
  have hvalue := hround.abs_sub_le (abs_nonneg r)
  have hhalf := hround.half_unit_le hr
  have htriangle := abs_sub_le |y.writtenValue| y.magnitude |r|
  rw [abs_sub_comm y.magnitude] at htriangle
  linarith

/-- A double of full precision is written as a number of full precision. -/
theorem normalThreshold_le_written (h : Leaves r (.ok y)) (hr : normalThreshold < |r|) :
    normalThreshold ≤ |y.writtenValue| :=
  y.rounds_writtenValue.normalThreshold_le (abs_nonneg _) (h.rounds.2.le_significand hr)

end Leaves

end Amount

end UnitLedger
