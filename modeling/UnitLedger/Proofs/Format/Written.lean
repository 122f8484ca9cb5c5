import UnitLedger.Proofs.Decimal.Entered
import UnitLedger.Proofs.Decimal.FixedText
import UnitLedger.Proofs.Format
set_option autoImplicit false

/-! # Text of doubles

Money, and quantities that are shown as doubles, are written as the decimal of the double, rounded
once to the places asked for (`doubles_written_once`).  Ties are those of the decimal and not of the
binary value: `1.005` is a tie although the double is below it.
-/

namespace UnitLedger.Format

open Binary64 Decimal Exact

/-- A number without fraction digits beyond its places is written in full. -/
theorem isFixedText_fixed {z : Decimal} {r : Rat} {places : Nat}
    (h : z.toRat = toPlaces r places) :
    IsFixedText (toPlaces r places) places (z.fixed places) := by
  rw [fixed_of_toRat h]
  exact isFixedText_numeral _ _

/-- The decimal of a double is written rounded once, to an integer for a count and to the places asked
for otherwise. -/
theorem exists_value_ofFinite (x : Finite) (isCount : Bool) (decimals : Nat) :
    ∃ number : List Char,
      value (ofFinite x) isCount decimals = .ok (String.ofList number) ∧
      IsFixedText (toPlaces x.writtenValue (if isCount then 0 else decimals))
        (if isCount then 0 else decimals) number := by
  cases isCount with
  | true =>
    refine ⟨_, rfl, isFixedText_fixed ?_⟩
    rw [(settled_ofFinite x).toRat_roundHalfAway, toRat_ofFinite]
    exact (toPlaces_zero_places _).symm
  | false =>
    obtain ⟨y, hy, hvalue⟩ := exists_roundPlaces_ofFinite x decimals
    refine ⟨y.fixed decimals, ?_, isFixedText_fixed hvalue⟩
    unfold value
    rw [hy]
    rfl

/-- An amount that is not finite has no decimal. -/
theorem money_of_not_finite {b : Binary64} (h : b.isFinite = false) (o : DisplayOptions) :
    money b o = .error (.number (.outsideDomain ("non-finite value " ++ b.text))) := by
  cases b with
  | finite x => cases h
  | infinite negative => rfl
  | nan => rfl

/-- Whatever the double and the number of decimals, an amount of money and the number of a quantity
are the decimal that is written for the double, rounded once with a half going away from zero and in
positional notation with exactly the decimals asked for; a count has none.  An amount of money that
is not finite is refused. -/
theorem doubles_written_once (x : Finite) (o : DisplayOptions) :
    (∃ number : List Char,
      money (.finite x) o = .ok (String.ofList number) ∧
      IsFixedText (toPlaces x.writtenValue o.moneyDecimals.toNat) o.moneyDecimals.toNat number) ∧
    (∀ u : MeasureUnit, ∃ number : List Char,
      display ⟨x, u⟩ o = .ok (String.ofList number ++ " " ++ u.symbol) ∧
      IsFixedText (toPlaces x.writtenValue (places u.dimension o)) (places u.dimension o)
        number) ∧
    ∀ b : Binary64, b.isFinite = false →
      ∃ e, money b o = .error e ∧ e.code = "DOMAIN_ERROR" ∧
        e.message = "outside the domain: non-finite value " ++ b.text := by
  have hvalue := exists_value_ofFinite x
  refine ⟨?_, fun u => ?_, fun b hb => ?_⟩
  · rw [money_finite]
    exact hvalue false o.moneyDecimals.toNat
  · obtain ⟨number, hnumber, htext⟩ := hvalue u.dimension.isCount o.quantityDecimals.toNat
    exact ⟨number, display_eq_of_value hnumber, htext⟩
  · exact ⟨_, money_of_not_finite hb o, rfl, String.append_assoc.symm⟩

/-- The double below `1.005` is written as `1.01`, and minus infinity is no amount. -/
theorem doubles_written_once_tie :
    Binary64.isFinite (.infinite true) = false ∧
      (∃ number : List Char,
        money (.finite ⟨false, 4526117625507348, -52, by decide⟩) .standard =
          .ok (String.ofList number) ∧ IsFixedText (101 / 100) 2 number) ∧
      ∃ e, money (.infinite true) .standard = .error e ∧ e.code = "DOMAIN_ERROR" ∧
        e.message = "outside the domain: non-finite value -inf" := by
  have hvalue : toPlaces (⟨false, 4526117625507348, -52, by decide⟩ : Finite).writtenValue 2 =
      101 / 100 := by
    decide +kernel
  obtain ⟨hmoney, -, hrefused⟩ :=
    doubles_written_once ⟨false, 4526117625507348, -52, by decide⟩ .standard
  rw [← hvalue]
  exact ⟨rfl, hmoney, hrefused (.infinite true) rfl⟩

end UnitLedger.Format
