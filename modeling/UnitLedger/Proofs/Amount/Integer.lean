import UnitLedger.Proofs.Decimal.Entered
import UnitLedger.Proofs.Quantity.Count
set_option autoImplicit false

/-! # Integers to be stored

A number is taken into a signed 64-bit word if it is whole and the word can hold it, and it is
rounded to be stored if the word can hold the rounded value.  Rounding can carry a number out of the
range, so refusals start one half beyond the first and the last word (`isStorable_halfAway_iff`).
Nothing wraps around, and nothing is moved to the nearest end (`roundToInteger_of_entered`).
-/

namespace UnitLedger

open Decimal Exact StoredQuantity

/-- A number is rounded to a storable integer if it is less than one half beyond the range. -/
theorem isStorable_halfAway_iff (x : Rat) :
    IsStorable (halfAway x) ↔ -2 ^ 63 - 1 / 2 < x ∧ x < 2 ^ 63 - 1 / 2 := by
  have hhigh := (le_halfAway_iff (n := 2 ^ 63) (by norm_num) x).not
  -- the lower end is the upper end of the reflected range, one further out
  have hlow := (le_halfAway_iff (n := 2 ^ 63 + 1) (by norm_num) (-x)).not
  rw [halfAway_neg] at hlow
  push_cast [not_le] at hhigh hlow
  unfold IsStorable
  constructor
  · rintro ⟨hfirst, hlast⟩
    have hbelow := hlow.1 (by omega)
    have habove := hhigh.1 (by omega)
    constructor <;> linarith
  · rintro ⟨hbelow, habove⟩
    have hfirst := hlow.2 (by linarith)
    have hlast := hhigh.2 (by linarith)
    constructor <;> omega

section Entered

variable {x : Decimal} (hx : x.Entered)
include hx

theorem Decimal.Entered.precision_eq : x.precision = workingPrecision := by
  obtain ⟨s, e, rfl⟩ := hx.exists_rounded
  exact rounded_precision s e workingPrecision

/-- The outcome of rounding a number that came in: the word of the rounded value, or a refusal that
shows the number. -/
theorem Decimal.Entered.roundToInteger :
    if IsStorable (halfAway x.toRat) then
      ∃ w : Int64, w.toInt = halfAway x.toRat ∧ Amount.roundToInteger x = .ok w
    else Amount.roundToInteger x =
      .error (.invalidQuantity (x.text ++ " is outside the storable range")) :=
  roundToInteger_of_halfAway hx.settled.length_le hx.precision_eq rfl

theorem Decimal.Entered.roundToInteger_eq_ok_iff {w : Int64} :
    Amount.roundToInteger x = .ok w ↔ halfAway x.toRat = w.toInt := by
  have hround := hx.roundToInteger
  split at hround
  · obtain ⟨v, hv, hok⟩ := hround
    rw [hok, ← hv, Except.ok.injEq, Int64.toInt_inj]
  · next hout =>
    rw [hround]
    refine iff_of_false (fun h => by cases h) fun h => hout ?_
    rw [h]
    exact (exists_toInt_iff _).1 ⟨w, rfl⟩

theorem Decimal.Entered.roundToInteger_eq_error_iff :
    Amount.roundToInteger x =
        .error (.invalidQuantity (x.text ++ " is outside the storable range")) ↔
      ¬ IsStorable (halfAway x.toRat) := by
  have hround := hx.roundToInteger
  split at hround
  · next hin =>
    obtain ⟨w, -, hok⟩ := hround
    rw [hok]
    exact iff_of_false (fun h => by cases h) (not_not.2 hin)
  · next hout => exact iff_of_true hround hout

end Entered

/-- A number that comes in, with any exponent, is taken into a word exactly if it is the integer of
the word, and rounded to be stored exactly if its rounded value is; everything else is refused, and
that is what lies one half or more beyond the range. -/
theorem roundToInteger_of_entered {x : Decimal} (hx : x.Entered) (n : Int) :
    ((∃ w : Int64, w.toInt = n ∧ x.toInt64? = some w) ↔ x.toRat = n ∧ IsStorable n) ∧
      ((∃ w : Int64, w.toInt = n ∧ Amount.roundToInteger x = .ok w) ↔
        halfAway x.toRat = n ∧ IsStorable n) ∧
      (Amount.roundToInteger x =
          .error (.invalidQuantity (x.text ++ " is outside the storable range")) ↔
        ¬ IsStorable (halfAway x.toRat)) ∧
      (¬ IsStorable (halfAway x.toRat) ↔
        x.toRat ≤ -2 ^ 63 - 1 / 2 ∨ 2 ^ 63 - 1 / 2 ≤ x.toRat) := by
  refine ⟨?_, ?_, hx.roundToInteger_eq_error_iff, ?_⟩
  · exact exists_toInt_eq_iff (q := fun n => x.toRat = n) (fun w => toInt64?_eq_some_iff) n
  · exact exists_toInt_eq_iff (q := fun n => halfAway x.toRat = n)
      (fun w => hx.roundToInteger_eq_ok_iff) n
  · rw [isStorable_halfAway_iff, not_and_or, not_lt, not_lt]

/-- Just beyond the last word, and just before one half beyond the first one. -/
theorem roundToInteger_of_entered_ends :
    (∃ x, ofText "9223372036854775807.5" = .ok x ∧ x.Entered ∧
      Amount.roundToInteger x =
        .error (.invalidQuantity (x.text ++ " is outside the storable range"))) ∧
    ∃ x, ofText "-9223372036854775808.4999999999999999999999999999999" = .ok x ∧ x.Entered ∧
      ∃ w : Int64, w.toInt = -2 ^ 63 ∧ Amount.roundToInteger x = .ok w := by
  have hlast : ofText "9223372036854775807.5" = .ok ⟨92233720368547758075, -1, 50, by decide⟩ := by
    decide +kernel
  have hfirst : ofText "-9223372036854775808.4999999999999999999999999999999" =
      .ok ⟨-92233720368547758084999999999999999999999999999999, -31, 50, by decide⟩ := by
    decide +kernel
  constructor
  · obtain ⟨-, -, hrefused, -⟩ := roundToInteger_of_entered (.text hlast) 0
    exact ⟨_, hlast, .text hlast, hrefused.2 (by decide +kernel)⟩
  · obtain ⟨-, hstored, -, -⟩ := roundToInteger_of_entered (.text hfirst) (-2 ^ 63)
    exact ⟨_, hfirst, .text hfirst, hstored.2 (by decide +kernel)⟩

end UnitLedger
