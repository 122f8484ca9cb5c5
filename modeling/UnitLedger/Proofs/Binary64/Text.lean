import UnitLedger.Proofs.Decimal.Plain
import UnitLedger.Proofs.Entry.Printed
set_option autoImplicit false

/-! # Doubles through text

Decimals and doubles are made from each other by way of a text: a decimal takes up the text that is
written for a double, and a double is read from the significand and the exponent of a decimal.
`Decimal.ofFinite` and `Decimal.toBinary64` leave the text out.  Here both are shown to give what the
text gives (`ofBinary64_eq_ofText`, `ofText?_scientific`), whatever the double or the decimal.  A
double is read back from its own text as well (`ofText?_text`).
-/

namespace UnitLedger

open Text Numeral Binary64
open Decimal (SpellsInteger SpellsExponent numeral signed signedText rounded workingPrecision)
open Entry (DecimalLiteral literalOf)

namespace Binary64

/-! ## Reading -/

theorem readExponent?_of_spells {tail : List Char} {e : Int} (h : SpellsExponent tail e) :
    readExponent? tail = some e := by
  cases h with
  | none => rfl
  | @scaled letter hletter cs e hcs =>
    obtain ⟨negative, ds, hsplit, hne, hdigits, hvalue⟩ := hcs.splitSign
    have hexponent : (letter == 'e' || letter == 'E') = true := by
      rcases hletter with rfl | rfl <;> rfl
    have hsome : (ds != []) = true := bne_iff_ne.2 hne
    unfold readExponent?
    dsimp only
    rw [hsplit]
    dsimp only
    rw [hexponent, hsome, List.all_eq_true.2 hdigits, ← hvalue]
    rfl

/-- No exponent goes on with the digits before it. -/
theorem ends_of_spells (l : DecimalLiteral) {tail : List Char} {e : Int}
    (h : SpellsExponent tail e) : l.Ends tail := by
  intro c hc
  cases h with
  | none => cases hc
  | scaled hletter _ =>
    cases hc
    rcases hletter with rfl | rfl <;> exact ⟨by decide, fun _ => by decide⟩

/-- A literal with an exponent behind it, or without one, is read as the double nearest to it. -/
theorem read?_literal (l : DecimalLiteral) {tail : List Char} {e : Int}
    (h : SpellsExponent tail e) :
    read? (l.text ++ tail) = some ((Literal.ofSides l.whole (l.fraction.getD [])).toBinary64
      (decide (l.sign = .minus)) e) := by
  unfold read?
  rw [l.splitSign_text]
  dsimp only
  rw [DecimalLiteral.take?_body (ends_of_spells l h)]
  dsimp only
  rw [readExponent?_of_spells h, Option.map_some]

/-- A literal alone is read as the double that is taken off the front of an entry for it. -/
theorem read?_text (l : DecimalLiteral) : read? l.text = some l.double := by
  have hread := read?_literal l SpellsExponent.none
  rwa [List.append_nil, ← l.double_eq] at hread

/-- Every double is read back from its text: zeros and infinities with their sign. -/
theorem ofText?_text (x : Binary64) : ofText? x.text = some x := by
  unfold ofText? text
  rw [String.toList_ofList]
  cases x with
  | finite x =>
    have hread := read?_text (literalOf x)
    rwa [Entry.text_literalOf, Entry.double_literalOf] at hread
  | infinite negative => cases negative <;> decide
  | nan => decide

end Binary64

namespace Decimal

/-! ## From a decimal to a double -/

/-- The significand of `x` with its exponent behind it. -/
def scientific (x : Decimal) : List Char := numeral x.significand 0 ++ 'e' :: numeral x.exponent 0

theorem spellsInteger_numeral (n : Int) : SpellsInteger (numeral n 0) n := by
  have hdigits : ∀ c ∈ Nat.toDigits 10 n.natAbs, c.isDigit = true :=
    fun c hc => isDigit_of_mem_toDigits hc
  have hvalue : Nat.ofDigitChars 10 (Nat.toDigits 10 n.natAbs) 0 = n.natAbs :=
    Nat.ofDigitChars_ten_toDigits
  unfold numeral
  rw [fixedPoint_zero_places]
  split
  · next hneg =>
    have hspells := SpellsInteger.minus Nat.toDigits_ne_nil hdigits
    rwa [hvalue, ← Int.eq_neg_natAbs_of_nonpos hneg.le] at hspells
  · next hnonneg =>
    have hspells := SpellsInteger.unsigned Nat.toDigits_ne_nil hdigits
    rwa [hvalue, Int.natAbs_of_nonneg (Int.not_lt.1 hnonneg)] at hspells

/-- The double of a decimal is the one that is read from its significand and exponent. -/
theorem ofText?_scientific (x : Decimal) :
    ofText? (String.ofList x.scientific) = some x.toBinary64 := by
  have hspells : SpellsExponent ('e' :: numeral x.exponent 0) x.exponent :=
    .scaled (Or.inl rfl) (spellsInteger_numeral x.exponent)
  have hread := read?_literal (DecimalLiteral.ofScaled x.significand 0) hspells
  rw [DecimalLiteral.text_ofScaled, DecimalLiteral.ofSides_ofScaled, DecimalLiteral.sign_ofScaled,
    Literal.toBinary64, Nat.cast_zero, sub_zero] at hread
  unfold ofText?
  rw [String.toList_ofList]
  exact hread

/-- A decimal has a double exactly when the one that is read is finite. -/
theorem toFinite?_eq_some_iff (x : Decimal) (y : Finite) :
    x.toFinite? = some y ↔ ofText? (String.ofList x.scientific) = some (.finite y) := by
  rw [ofText?_scientific, Option.some_inj]
  unfold toFinite?
  cases x.toBinary64 <;> simp

/-! ## From a double to a decimal -/

/-- The text of a double is the number written for it, in positional notation. -/
theorem exists_print_eq_signedText (x : Finite) :
    ∃ whole fraction : List Char, x.print = signedText x.negative whole fraction ∧ whole ≠ [] ∧
      (∀ c ∈ whole ++ fraction, c.isDigit = true) ∧
      (Nat.ofDigitChars 10 (whole ++ fraction) 0 : Rat) * (10 : Rat) ^ (-(fraction.length : Int)) =
        x.written.digits * (10 : Rat) ^ x.written.exponent := by
  unfold Finite.print positional
  dsimp only
  generalize x.written = d
  generalize hmagnitude : d.digits * 10 ^ d.exponent.toNat = m
  generalize hplaces : (-d.exponent).toNat = places
  refine ⟨Nat.toDigits 10 (m / 10 ^ places),
    if places = 0 then [] else padded places (m % 10 ^ places), ?_, Nat.toDigits_ne_nil,
    fun c (hc : c ∈ fixedDigits m places) => isDigit_of_mem_fixedDigits hc, ?_⟩
  · rw [fixedPoint_eq_signedText]
    cases x.negative <;> rfl
  · have hdigits := ofDigitChars_fixedDigits m places
    unfold fixedDigits at hdigits
    rw [hdigits, length_fraction, zpow_eq_div_pow_toNat 10 d.exponent, hplaces, ← hmagnitude,
      zpow_neg, zpow_natCast]
    push_cast
    ring

/-- The decimal of a double is the one that is read from its text. -/
theorem ofText_print (x : Finite) : ofText (String.ofList x.print) = .ok (ofFinite x) := by
  obtain ⟨whole, fraction, hprint, hwhole, hdigits, hvalue⟩ := exists_print_eq_signedText x
  have hread := isReadAs_signedText x.negative hwhole hdigits SpellsExponent.none (by decide)
    [] [] nofun nofun
  rw [List.nil_append, List.append_nil, List.append_nil, ← hprint] at hread
  rw [hread]
  refine congrArg Except.ok (rounded_congr (by decide) ?_)
  show _ = (signed x.negative x.written.digits : Rat) * (10 : Rat) ^ x.written.exponent
  rw [cast_signed, cast_signed, zero_sub, mul_assoc, hvalue, mul_assoc]

theorem ofBinary64_eq_ofText {x : Binary64} (h : x.isFinite = true) :
    ofBinary64 x = ofText x.text := by
  cases x with
  | finite x => exact (ofText_print x).symm
  | infinite negative => cases h
  | nan => cases h

end Decimal

end UnitLedger
