import UnitLedger.Proofs.Decimal.Places
import UnitLedger.Proofs.Numeral
set_option autoImplicit false

/-! # Positional notation

What it means that a text is a number in positional notation with a fixed number of fraction digits
(`IsFixedText`), in terms of the characters of the text and not of the way it is made; `numeral`
makes the text of its number (`isFixedText_numeral`).  A number has one such text
(`IsFixedText.unique`), and a decimal is shown as the number that is left when it is cut at the
places (`fixedText_eq_iff`).
-/

namespace UnitLedger.Decimal

open Numeral Exact

/-! ## The notation -/

/-- A minus if there is to be one, digits, and digits behind a point if there are any. -/
def signedText (negative : Bool) (whole fraction : List Char) : List Char :=
  (if negative then ['-'] else []) ++ whole ++ if fraction = [] then [] else '.' :: fraction

/-- The digits on the two sides of a point spell the magnitude of `r`: `places` of them behind the
point, and before it at least one, and no zero in front of others. -/
structure Spells (r : Rat) (places : Nat) (whole fraction : List Char) : Prop where
  digits : ∀ c ∈ whole ++ fraction, c.isDigit = true
  wholeNonempty : whole ≠ []
  noLeadingZero : whole.head? = some '0' → whole = ['0']
  fractionLength : fraction.length = places
  value : |r| * 10 ^ places = Nat.ofDigitChars 10 (whole ++ fraction) 0

/-- `text` is `r` in positional notation with exactly `places` fraction digits.  There is a minus
exactly when `r` is negative, so none before a zero. -/
def IsFixedText (r : Rat) (places : Nat) (text : List Char) : Prop :=
  ∃ whole fraction : List Char,
    text = signedText (decide (r < 0)) whole fraction ∧ Spells r places whole fraction

/-! ## Digits -/

/-- The digits before and behind the point of a fixed-point text. -/
theorem spells_fixedPoint (n : Int) (places : Nat) :
    Spells (n / 10 ^ places) places (Nat.toDigits 10 (n.natAbs / 10 ^ places))
      (if places = 0 then [] else padded places (n.natAbs % 10 ^ places)) where
  digits := fun c (hc : c ∈ fixedDigits n.natAbs places) => isDigit_of_mem_fixedDigits hc
  wholeNonempty := Nat.toDigits_ne_nil
  noLeadingZero := by
    intro hhead
    rw [eq_zero_of_head?_toDigits hhead]
    rfl
  fractionLength := length_fraction n.natAbs places
  value := by
    have hten : (0 : Rat) < 10 ^ places := by positivity
    have hdigits := ofDigitChars_fixedDigits n.natAbs places
    unfold fixedDigits at hdigits
    rw [hdigits, abs_div, abs_of_pos hten, div_mul_cancel₀ _ hten.ne', abs_intCast]

theorem fixedPoint_eq_signedText (m places : Nat) :
    fixedPoint m places = signedText false (Nat.toDigits 10 (m / 10 ^ places))
      (if places = 0 then [] else padded places (m % 10 ^ places)) := by
  unfold fixedPoint signedText
  by_cases h : places = 0
  · simp [h]
  · have hne : padded places (m % 10 ^ places) ≠ [] := by
      intro hnil
      have hlen := length_fraction m places
      rw [if_neg h, hnil, List.length_nil] at hlen
      exact h hlen.symm
    simp [h, hne]

theorem numeral_eq_signedText (n : Int) (places : Nat) :
    numeral n places = signedText (decide (n < 0)) (Nat.toDigits 10 (n.natAbs / 10 ^ places))
      (if places = 0 then [] else padded places (n.natAbs % 10 ^ places)) := by
  unfold numeral
  rw [fixedPoint_eq_signedText]
  by_cases h : n < 0
  · rw [if_pos h, decide_eq_true h]
    rfl
  · rw [if_neg h, decide_eq_false h]

/-- A numeral is the text of its number. -/
theorem isFixedText_numeral (n : Int) (places : Nat) :
    IsFixedText (n / 10 ^ places) places (numeral n places) := by
  refine ⟨_, _, ?_, spells_fixedPoint n places⟩
  have hten : (0 : Rat) < 10 ^ places := by positivity
  have hneg : (n : Rat) / 10 ^ places < 0 ↔ n < 0 := by
    rw [div_lt_iff₀ hten, zero_mul, Int.cast_lt_zero]
  rw [numeral_eq_signedText, decide_eq_decide.2 hneg]

/-! ## Characters -/

theorem mem_signedText {negative : Bool} {whole fraction : List Char} {c : Char}
    (hc : c ∈ signedText negative whole fraction) : c ∈ whole ++ fraction ∨ c = '.' ∨ c = '-' := by
  rcases List.mem_append.1 hc with hfront | hfraction
  · rcases List.mem_append.1 hfront with hsign | hwhole
    · split at hsign
      · exact Or.inr (Or.inr (List.mem_singleton.1 hsign))
      · cases hsign
    · exact Or.inl (List.mem_append_left _ hwhole)
  · split at hfraction
    · cases hfraction
    · rcases List.mem_cons.1 hfraction with hpoint | hdigit
      · exact Or.inr (Or.inl hpoint)
      · exact Or.inl (List.mem_append_right _ hdigit)

theorem mem_signedText_of_mem (negative : Bool) {whole fraction : List Char} {c : Char}
    (hc : c ∈ whole ++ fraction) : c ∈ signedText negative whole fraction := by
  rcases List.mem_append.1 hc with hwhole | hfraction
  · exact List.mem_append_left _ (List.mem_append_right _ hwhole)
  · apply List.mem_append_right
    rw [if_neg (List.ne_nil_of_mem hfraction)]
    exact List.mem_cons_of_mem _ hfraction

/-- A text shows a digit other than zero exactly when the number is not zero. -/
theorem IsFixedText.exists_digit_ne_zero_iff {r : Rat} {places : Nat} {text : List Char}
    (h : IsFixedText r places text) : (∃ c ∈ text, c.isDigit = true ∧ c ≠ '0') ↔ r ≠ 0 := by
  obtain ⟨whole, fraction, rfl, hspells⟩ := h
  have hten : (0 : Rat) < 10 ^ places := by positivity
  have hzero : r = 0 ↔ ∀ c ∈ whole ++ fraction, c = '0' := by
    rw [← ofDigitChars_eq_zero_iff hspells.digits, ← Nat.cast_eq_zero (R := Rat), ← hspells.value,
      mul_eq_zero, abs_eq_zero, or_iff_left hten.ne']
  rw [ne_eq, hzero]
  constructor
  · rintro ⟨c, hc, hdigit, hne⟩ hall
    rcases mem_signedText hc with hmem | rfl | rfl
    · exact hne (hall c hmem)
    · exact absurd hdigit (by decide)
    · exact absurd hdigit (by decide)
  · intro hnot
    obtain ⟨c, hc, hne⟩ : ∃ c ∈ whole ++ fraction, c ≠ '0' := by
      by_contra hnone
      exact hnot fun c hc => by_contra fun hne => hnone ⟨c, hc, hne⟩
    exact ⟨c, mem_signedText_of_mem _ hc, hspells.digits c hc, hne⟩

/-! ## One text for each number -/

/-- The value of digits on the two sides of a point. -/
theorem Spells.divMod {r : Rat} {places : Nat} {whole fraction : List Char}
    (h : Spells r places whole fraction) :
    Nat.ofDigitChars 10 (whole ++ fraction) 0 / 10 ^ places = Nat.ofDigitChars 10 whole 0 ∧
      Nat.ofDigitChars 10 (whole ++ fraction) 0 % 10 ^ places = Nat.ofDigitChars 10 fraction 0 := by
  have hlt := ofDigitChars_lt_pow fun c hc => h.digits c (List.mem_append_right whole hc)
  rw [h.fractionLength] at hlt
  rw [Nat.ofDigitChars_append, Nat.ofDigitChars_eq_ofDigitChars_zero, h.fractionLength,
    Nat.mul_add_div (Nat.pow_pos (Nat.succ_pos 9)), Nat.div_eq_of_lt hlt, Nat.add_zero,
    Nat.mul_add_mod, Nat.mod_eq_of_lt hlt]
  exact ⟨rfl, rfl⟩

theorem Spells.unique {r : Rat} {places : Nat} {whole fraction whole' fraction' : List Char}
    (h : Spells r places whole fraction) (h' : Spells r places whole' fraction') :
    whole = whole' ∧ fraction = fraction' := by
  have hvalue : Nat.ofDigitChars 10 (whole ++ fraction) 0 =
      Nat.ofDigitChars 10 (whole' ++ fraction') 0 := by
    exact_mod_cast h.value.symm.trans h'.value
  obtain ⟨hwhole, hfraction⟩ := h.divMod
  obtain ⟨hwhole', hfraction'⟩ := h'.divMod
  rw [hvalue] at hwhole hfraction
  constructor
  · rw [eq_toDigits (fun c hc => h.digits c (List.mem_append_left _ hc)) h.wholeNonempty
        h.noLeadingZero,
      eq_toDigits (fun c hc => h'.digits c (List.mem_append_left _ hc)) h'.wholeNonempty
        h'.noLeadingZero, ← hwhole, ← hwhole']
  · exact eq_of_ofDigitChars_eq (fun c hc => h.digits c (List.mem_append_right _ hc))
      (fun c hc => h'.digits c (List.mem_append_right _ hc))
      (h.fractionLength.trans h'.fractionLength.symm) (hfraction.symm.trans hfraction')

/-- Positional notation leaves no choice. -/
theorem IsFixedText.unique {r : Rat} {places : Nat} {text text' : List Char}
    (h : IsFixedText r places text) (h' : IsFixedText r places text') : text = text' := by
  obtain ⟨whole, fraction, rfl, hspells⟩ := h
  obtain ⟨whole', fraction', rfl, hspells'⟩ := h'
  obtain ⟨rfl, rfl⟩ := hspells.unique hspells'
  rfl

/-! ## Decimals that are cut -/

/-- The text of a decimal with a number of places is the decimal cut at them. -/
theorem isFixedText_fixed (x : Decimal) (places : Nat) :
    IsFixedText (cutPlaces x.toRat places) places (x.fixed places) := by
  rw [fixed_eq_numeral]
  exact isFixedText_numeral _ places

/-- The text of a decimal with a number of places is the decimal cut at them, digits further behind
being dropped without rounding, in positional notation.  Every part of the text is told by this:
there is no other text of the cut number with these places.  It is made by splitting characters that
are digits, so of one byte each, and more than there are places, so that the split leaves one before
the point. -/
theorem fixedText_eq_iff (x : Decimal) (places : Nat) :
    (∀ c ∈ x.shownDigits places, c.isDigit = true) ∧ places < (x.shownDigits places).length ∧
      ∀ text : String, x.fixedText places = text ↔
        IsFixedText (cutPlaces x.toRat places) places text.toList := by
  have hfixed := isFixedText_fixed x places
  rw [shownDigits_eq]
  refine ⟨fun c hc => isDigit_of_mem_fixedDigits hc, ?_, fun text => ?_⟩
  · rw [length_fixedDigits, Nat.lt_add_left_iff_pos]
    exact Nat.length_toDigits_pos
  · constructor
    · rintro rfl
      rw [fixedText, String.toList_ofList]
      exact hfixed
    · intro htext
      rw [fixedText, hfixed.unique htext, String.ofList_toList]

end UnitLedger.Decimal
