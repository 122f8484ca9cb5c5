import UnitLedger.Proofs.Decimal.Chain
import UnitLedger.Proofs.Decimal.Plain
set_option autoImplicit false

/-! # Fraction digits of plain text

How many fraction digits a number needs (`NeedsPlaces`) and how many its plain text has.  The number
of digits is kept in a 32-bit word: a text shows all digits of a number that needs fewer than
`2 ^ 32`, and of a number that needs more it shows zeros only, in a record as well
(`plain_of_ofText`).
-/

namespace UnitLedger.Decimal

open Text Numeral Exact

/-! ## Fraction digits -/

/-- With `places` fraction digits `r` is a whole number of units of the last one, and with fewer it
is not. -/
structure NeedsPlaces (r : Rat) (places : Nat) : Prop where
  whole : ∃ n : Int, r * 10 ^ places = n
  least : ∀ p : Nat, (∃ n : Int, r * 10 ^ p = n) → places ≤ p

theorem NeedsPlaces.unique {r : Rat} {p q : Nat} (hp : NeedsPlaces r p) (hq : NeedsPlaces r q) :
    p = q :=
  Nat.le_antisymm (hp.least q hq.whole) (hq.least p hp.whole)

theorem needsPlaces_toRat (x : Decimal) : NeedsPlaces x.toRat (-x.exponent).toNat where
  whole := by
    refine ⟨x.significand * 10 ^ x.exponent.toNat, ?_⟩
    rw [toRat, zpow_eq_div_pow_toNat]
    push_cast
    field_simp
  least := by
    rintro p ⟨n, hn⟩
    have hvalue : x.toRat = n * (10 : Rat) ^ (-(p : Int)) := by
      rw [← hn, zpow_neg, zpow_natCast, mul_inv_cancel_right₀ (by positivity)]
    have hle := le_exponent_of_toRat (by omega) hvalue
    omega

section Plain

variable {x : Decimal} {places : Nat}

theorem plainPlaces_eq (h : NeedsPlaces x.toRat places) : x.plainPlaces = places % 2 ^ 32 := by
  rw [h.unique (needsPlaces_toRat x), plainPlaces]
  congr 1
  omega

/-- A number with `2 ^ 32` fraction digits or more is far below the places that are left of them. -/
theorem abs_toRat_mul_pow_lt_one (hlen : x.length ≤ workingPrecision)
    (h : NeedsPlaces x.toRat places) (hlarge : 2 ^ 32 ≤ places) :
    |x.toRat| * 10 ^ (places % 2 ^ 32) < 1 := by
  have hplaces := h.unique (needsPlaces_toRat x)
  have hsignificand : (x.significand.natAbs : Rat) < 10 ^ workingPrecision := by
    exact_mod_cast (digitCount_le_iff _ _).1 hlen
  have hexp : x.exponent + (places % 2 ^ 32 : Nat) ≤ -(workingPrecision : Int) := by
    unfold workingPrecision
    omega
  calc |x.toRat| * 10 ^ (places % 2 ^ 32)
      = x.significand.natAbs * (10 : Rat) ^ (x.exponent + (places % 2 ^ 32 : Nat)) := by
        rw [abs_toRat, zpow_add₀ (by norm_num), zpow_natCast, mul_assoc]
    _ < 10 ^ workingPrecision * (10 : Rat) ^ (x.exponent + (places % 2 ^ 32 : Nat)) :=
        mul_lt_mul_of_pos_right hsignificand (by positivity)
    _ ≤ 10 ^ workingPrecision * (10 : Rat) ^ (-(workingPrecision : Int)) :=
        mul_le_mul_of_nonneg_left (zpow_le_zpow_right₀ (by norm_num) hexp) (by positivity)
    _ = 1 := by
        rw [zpow_neg, zpow_natCast, mul_inv_cancel₀ (by positivity)]

/-- What the plain text shows of a number: all of it or nothing. -/
theorem cutPlaces_plainPlaces (hlen : x.length ≤ workingPrecision)
    (h : NeedsPlaces x.toRat places) :
    cutPlaces x.toRat x.plainPlaces = if places < 2 ^ 32 then x.toRat else 0 := by
  rw [plainPlaces_eq h]
  split
  · next hsmall =>
    obtain ⟨n, hn⟩ := h.whole
    rw [Nat.mod_eq_of_lt hsmall]
    exact cutPlaces_of_whole hn
  · next hlarge =>
    exact cutPlaces_eq_zero (abs_toRat_mul_pow_lt_one hlen h (Nat.le_of_not_lt hlarge))

theorem isFixedText_plain (hlen : x.length ≤ workingPrecision) (h : NeedsPlaces x.toRat places) :
    IsFixedText (if places < 2 ^ 32 then x.toRat else 0) (places % 2 ^ 32) x.plain := by
  rw [← cutPlaces_plainPlaces hlen h, ← plainPlaces_eq h]
  exact isFixedText_fixed x x.plainPlaces

/-- The plain text is read as what it shows. -/
theorem exists_ofText_plainText_shown (hlen : x.length ≤ workingPrecision)
    (h : NeedsPlaces x.toRat places) :
    ∃ y, ofText x.plainText = .ok y ∧ y.toRat = if places < 2 ^ 32 then x.toRat else 0 := by
  have hshown := cutPlaces_plainPlaces hlen h
  rw [cutPlaces] at hshown
  rw [plainText, plain, fixed_eq_numeral, ← hshown]
  apply exists_ofText_numeral
  rw [hshown]
  split
  · exact (length_le_iff_keeps x (by decide)).1 hlen
  · have hzero := keeps_of_digitCount_le (p := workingPrecision) (s := 0) (by simp) 0
    rwa [Int.cast_zero, zero_mul] at hzero

end Plain

/-! ## Records -/

/-- Digits, points and signs are not escaped. -/
theorem IsFixedText.flatMap_escapeChar {r : Rat} {places : Nat} {text : List Char}
    (h : IsFixedText r places text) : text.flatMap Json.escapeChar = text := by
  obtain ⟨whole, fraction, rfl, hspells⟩ := h
  have hchar : ∀ c ∈ signedText (decide (r < 0)) whole fraction, Json.escapeChar c = [c] := by
    intro c hc
    rcases mem_signedText hc with hmem | rfl | rfl
    · have hdigit := hspells.digits c hmem
      have hprintable : ¬ c.toNat < 32 := by
        have hzero : '0'.toNat = 48 := rfl
        have := Char.isDigit_iff_toNat.1 hdigit
        omega
      simp [Json.escapeChar, ne_of_isDigit hdigit, hprintable]
    · decide
    · decide
  rw [List.flatMap_congr hchar, List.flatMap_singleton']

theorem toList_write_decimal (x : Decimal) :
    (Json.decimal.write x).toList = '"' :: (x.plainText.toList ++ ['"']) := by
  have htext : x.plainText.toList = x.fixed x.plainPlaces := String.toList_ofList
  have hprint := Json.print_ofText x.plainText
  rw [htext, (isFixedText_fixed x x.plainPlaces).flatMap_escapeChar, ← htext] at hprint
  unfold Json.Codec.write Json.Value.text
  rw [String.toList_ofList]
  exact hprint

/-- The record of a unit holds the text of its factor. -/
theorem infix_write_measureUnit (u : MeasureUnit) :
    (Json.decimal.write u.factor).toList <:+: (Json.measureUnit.write u).toList := by
  have hmember : (some "to_base_factor".toList, Json.decimal.encode u.factor) ∈
      [("symbol", Json.Value.ofText u.symbol), ("name", .ofText u.name),
        ("dimension", Json.dimension.encode u.dimension),
        ("system", Json.unitSystem.encode u.system),
        ("to_base_factor", Json.decimal.encode u.factor)].map
        fun m : String × Json.Value => (some m.1.toList, m.2) :=
    List.mem_map.2 ⟨("to_base_factor", Json.decimal.encode u.factor), by simp, rfl⟩
  unfold Json.Codec.write Json.Value.text
  rw [String.toList_ofList, String.toList_ofList]
  exact Json.print_infix_object hmember

/-- The plain text of a number that is read from a text, in a record as well, has as many digits
behind the point as the number needs, counted in a 32-bit word.  If the word can count them, the
text is the number; if not, the text is zero. -/
theorem plain_of_ofText {text : String} {x : Decimal} {places : Nat} (h : ofText text = .ok x)
    (hplaces : NeedsPlaces x.toRat places) :
    let shown : Rat := if places < 2 ^ 32 then x.toRat else 0
    IsFixedText shown (places % 2 ^ 32) x.plainText.toList ∧
      ((∃ c ∈ x.plainText.toList, c.isDigit = true ∧ c ≠ '0') ↔
        x.toRat ≠ 0 ∧ places < 2 ^ 32) ∧
      (Json.decimal.write x).toList = '"' :: (x.plainText.toList ++ ['"']) ∧
      (∃ y, Json.decimal.read? (Json.decimal.write x) = some y ∧ y.toRat = shown) ∧
      ∀ u : MeasureUnit, u.factor = x →
        (Json.decimal.write x).toList <:+: (Json.measureUnit.write u).toList ∧
          ∃ v, Json.measureUnit.read? (Json.measureUnit.write u) = some v ∧
            v.factor.toRat = shown := by
  -- what is read has at most fifty digits, so only its exponent can need a wide word
  obtain ⟨s, e, rfl⟩ := exists_rounded_of_ofText h
  have hlen := length_rounded_le s e (p := workingPrecision) (by decide)
  generalize rounded s e workingPrecision = x at *
  have hfixed := isFixedText_plain hlen hplaces
  obtain ⟨y, hread, hvalue⟩ := exists_ofText_plainText_shown hlen hplaces
  rw [← String.toList_ofList (l := x.plain), ← plainText] at hfixed
  refine ⟨hfixed, ?_, toList_write_decimal x, ⟨y, read?_write_decimal hread, hvalue⟩, ?_⟩
  · rw [hfixed.exists_digit_ne_zero_iff, ite_ne_right_iff, and_comm]
  · rintro u rfl
    have hagain := Json.read?_write_measureUnit (decode_decimal hread)
    exact ⟨infix_write_measureUnit u, _, hagain, hvalue⟩

theorem plain_of_ofText_thousandths :
    ∃ x, ofText "-2.50e-3" = .ok x ∧ NeedsPlaces x.toRat 4 ∧
      IsFixedText x.toRat 4 x.plainText.toList ∧
      (∃ c ∈ x.plainText.toList, c.isDigit = true ∧ c ≠ '0') ∧
      ∃ y, Json.decimal.read? (Json.decimal.write x) = some y ∧ y.toRat = x.toRat := by
  have hread : ofText "-2.50e-3" = .ok ⟨-25, -4, 50, by decide⟩ := by decide +kernel
  have hplaces := needsPlaces_toRat ⟨-25, -4, 50, by decide⟩
  have hne : (⟨-25, -4, 50, by decide⟩ : Decimal).toRat ≠ 0 :=
    mt (toRat_eq_zero_iff _).1 (by decide)
  obtain ⟨hfixed, hdigit, -, hback, -⟩ := plain_of_ofText hread hplaces
  exact ⟨_, hread, hplaces, hfixed, hdigit.2 ⟨hne, by decide⟩, hback⟩

/-- A number that needs `2 ^ 32` fraction digits is written as zero. -/
theorem tiny_written_as_zero :
    ∃ x, ofText "1e-4294967296" = .ok x ∧ x.toRat ≠ 0 ∧ NeedsPlaces x.toRat (2 ^ 32) ∧
      x.plainText = "0" ∧ Json.decimal.write x = "\"0\"" := by
  obtain ⟨hread, hplain⟩ : ofText "1e-4294967296" = .ok ⟨1, -4294967296, 50, by decide⟩ ∧
      (⟨1, -4294967296, 50, by decide⟩ : Decimal).plainText = "0" := by
    decide +kernel
  refine ⟨_, hread, mt (toRat_eq_zero_iff _).1 (by decide), needsPlaces_toRat _, hplain, ?_⟩
  rw [← String.toList_inj, toList_write_decimal, hplain]
  rfl

end UnitLedger.Decimal
