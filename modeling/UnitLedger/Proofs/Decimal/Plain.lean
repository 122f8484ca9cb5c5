import UnitLedger.Proofs.Decimal.Spelling
import UnitLedger.Proofs.Decimal.Sum
import UnitLedger.Proofs.Json.Record
set_option autoImplicit false

/-! # Plain text is read back

The plain text of a decimal is the numeral of an integer with as many fraction digits as the exponent
calls for (`exists_plain_eq_numeral`), and a numeral is read as its value rounded to the working
precision, however many zeros it has (`exists_read?_numeral`).  So no digit is lost on the way
through text, and none on the way through a record (`ofText_plainText`).
-/

namespace UnitLedger.Decimal

open Text Numeral

/-! ## Reading numerals -/

theorem signed_natAbs (n : Int) : signed (decide (n < 0)) n.natAbs = n := by
  by_cases h : n < 0
  · rw [decide_eq_true h, signed, if_pos rfl]
    omega
  · rw [decide_eq_false h]
    show (n.natAbs : Int) = n
    omega

/-- A numeral is read as its value, rounded to the working precision. -/
theorem exists_read?_numeral (n : Int) (places : Nat) :
    ∃ s e : Int, read? (numeral n places) = some (rounded s e workingPrecision) ∧
      (s : Rat) * (10 : Rat) ^ e = n / 10 ^ places := by
  obtain ⟨s, e, hread, hvalue⟩ := exists_read?_signedText (decide (n < 0)) Nat.toDigits_ne_nil
    (spells_fixedPoint n places).digits SpellsExponent.none (by decide)
  rw [List.append_nil, ← numeral_eq_signedText] at hread
  refine ⟨s, e, hread, hvalue.trans ?_⟩
  have hdigits := ofDigitChars_fixedDigits n.natAbs places
  unfold fixedDigits at hdigits
  rw [spelledValue, hdigits, length_fraction, zero_sub, zpow_neg, zpow_natCast, ← div_eq_mul_inv,
    signed_natAbs]

/-! ## Plain text -/

/-- Text depends on the value only, not on the precision. -/
theorem plain_congr {x y : Decimal} (h : x.toRat = y.toRat) : x.plain = y.plain := by
  obtain ⟨hsignificand, hexponent⟩ := eq_of_toRat_eq h
  obtain ⟨significand, exponent, _, _⟩ := x
  dsimp only at hsignificand hexponent
  subst hsignificand hexponent
  rfl

/-- The plain text of a number whose fraction digits a 32-bit word can count is the numeral of its
value. -/
theorem exists_plain_eq_numeral {x : Decimal} (hexp : -(2 ^ 32 - 1) ≤ x.exponent) :
    ∃ (n : Int) (places : Nat), x.plain = numeral n places ∧ x.toRat = n / 10 ^ places := by
  have hplaces : x.plainPlaces = (-x.exponent).toNat := by
    unfold plainPlaces
    omega
  have hvalue : x.toRat = (x.significand * 10 ^ x.exponent.toNat : Int) / 10 ^ x.plainPlaces := by
    rw [toRat, zpow_eq_div_pow_toNat, hplaces]
    push_cast
    ring
  exact ⟨_, _, fixed_of_toRat hvalue, hvalue⟩

theorem isTrimmed_numeral (n : Int) (places : Nat) : IsTrimmed (numeral n places) := by
  rw [numeral_eq_signedText]
  exact isTrimmed_of_visible (visible_signedText (spells_fixedPoint n places).digits)

/-- A numeral is read as its value if that fits the working precision.  The zeros of the text do not
count: only the value decides whether a digit is rounded away. -/
theorem exists_ofText_numeral {n : Int} {places : Nat}
    (hkeeps : Keeps workingPrecision ((n : Rat) / 10 ^ places)) :
    ∃ y, ofText (String.ofList (numeral n places)) = .ok y ∧ y.toRat = n / 10 ^ places := by
  obtain ⟨s, e, hread, hvalue⟩ := exists_read?_numeral n places
  refine ⟨rounded s e workingPrecision, ?_, ?_⟩
  · unfold ofText
    rw [String.toList_ofList, (isTrimmed_numeral n places).trim_eq]
    dsimp only
    rw [hread]
  · rw [← hvalue] at hkeeps
    rw [toRat_rounded_of_keeps hkeeps, hvalue]

/-- The plain text of a number is read as a number of the same value. -/
theorem exists_ofText_plainText {x : Decimal} (hlen : x.length ≤ workingPrecision)
    (hexp : -(2 ^ 32 - 1) ≤ x.exponent) :
    ∃ y, ofText x.plainText = .ok y ∧ y.toRat = x.toRat := by
  obtain ⟨n, places, hplain, hvalue⟩ := exists_plain_eq_numeral hexp
  have hkeeps := (length_le_iff_keeps x (by decide)).1 hlen
  rw [hvalue] at hkeeps ⊢
  rw [plainText, hplain]
  exact exists_ofText_numeral hkeeps

/-! ## Records -/

section Records

variable {x y : Decimal}

theorem decode_decimal (h : ofText x.plainText = .ok y) :
    Json.decimal.decode (Json.decimal.encode x) = some y := by
  unfold Json.decimal
  dsimp only
  rw [Json.text?_ofText, Option.bind_some, h]
  rfl

theorem read?_write_decimal (h : ofText x.plainText = .ok y) :
    Json.decimal.read? (Json.decimal.write x) = some y := by
  rw [Json.Codec.read?_write _ (Json.isProper_ofText _), decode_decimal h]

end Records

theorem same_with_factor {u : MeasureUnit} {y : Decimal} (h : y.toRat = u.factor.toRat) :
    MeasureUnit.same { u with factor := y } u = true := by
  unfold MeasureUnit.same
  rw [(same_iff y u.factor).2 h]
  simp

/-- No digit of a number that fits the working precision is lost in its plain text, however large
or small the number: the text is read as an equal number, which has the same text.  So the number
comes back from a record as well, and a unit with its factor. -/
theorem ofText_plainText (x : Decimal) (hlen : x.length ≤ workingPrecision)
    (hexp : -(2 ^ 32 - 1) ≤ x.exponent) :
    (∃ y, ofText x.plainText = .ok y ∧ y.same x = true ∧ y.plainText = x.plainText) ∧
      (∃ y, Json.decimal.read? (Json.decimal.write x) = some y ∧ y.same x = true) ∧
      ∀ u : MeasureUnit, u.factor = x →
        ∃ v, Json.measureUnit.read? (Json.measureUnit.write u) = some v ∧ v.same u = true := by
  obtain ⟨y, hread, hvalue⟩ := exists_ofText_plainText hlen hexp
  have hsame : y.same x = true := (same_iff y x).2 hvalue
  refine ⟨⟨y, hread, hsame, congrArg String.ofList (plain_congr hvalue)⟩,
    ⟨y, read?_write_decimal hread, hsame⟩, ?_⟩
  rintro u rfl
  exact ⟨_, Json.read?_write_measureUnit (decode_decimal hread), same_with_factor hvalue⟩

theorem ofText_plainText_thousandths :
    let x : Decimal := ⟨-12345, -3, 5, by decide⟩
    x.length ≤ workingPrecision ∧ -(2 ^ 32 - 1) ≤ x.exponent ∧
      (∃ y, ofText x.plainText = .ok y ∧ y.same x = true ∧ y.plainText = x.plainText) ∧
      (∃ y, Json.decimal.read? (Json.decimal.write x) = some y ∧ y.same x = true) ∧
      ∀ u : MeasureUnit, u.factor = x →
        ∃ v, Json.measureUnit.read? (Json.measureUnit.write u) = some v ∧ v.same u = true := by
  have hlen : (⟨-12345, -3, 5, by decide⟩ : Decimal).length ≤ workingPrecision :=
    (digitCount_le_iff 12345 workingPrecision).2 (by decide)
  exact ⟨hlen, by decide, ofText_plainText _ hlen (by decide)⟩

end UnitLedger.Decimal
