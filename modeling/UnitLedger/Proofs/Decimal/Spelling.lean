import UnitLedger.Decimal.Reader
import UnitLedger.Proofs.Decimal.FixedText
import UnitLedger.Proofs.Decimal.Order
import UnitLedger.Proofs.Text.Blank
set_option autoImplicit false

/-! # Spellings of a decimal

A decimal can be typed as digits with a point or without one, with or without an exponent, and each
way has its own path through the reader.  All of them end in one rounding of the value that is
spelled (`exists_read?_signedText`), and rounding sees nothing but the value: the point may be traded
for a smaller exponent (`ofText_spellings`).
-/

namespace UnitLedger.Decimal

open Text Numeral Exact

/-! ## Spellings -/

/-- `cs` is the integer `n`: digits, perhaps behind a sign. -/
inductive SpellsInteger : List Char → Int → Prop
  | unsigned {ds : List Char} (hne : ds ≠ []) (hdigits : ∀ c ∈ ds, c.isDigit = true) :
      SpellsInteger ds (Nat.ofDigitChars 10 ds 0)
  | plus {ds : List Char} (hne : ds ≠ []) (hdigits : ∀ c ∈ ds, c.isDigit = true) :
      SpellsInteger ('+' :: ds) (Nat.ofDigitChars 10 ds 0)
  | minus {ds : List Char} (hne : ds ≠ []) (hdigits : ∀ c ∈ ds, c.isDigit = true) :
      SpellsInteger ('-' :: ds) (-(Nat.ofDigitChars 10 ds 0 : Int))

/-- `cs` is an exponent of `e`: a letter and an integer, or nothing. -/
inductive SpellsExponent : List Char → Int → Prop
  | none : SpellsExponent [] 0
  | scaled {letter : Char} (hletter : letter = 'e' ∨ letter = 'E') {cs : List Char} {e : Int}
      (hcs : SpellsInteger cs e) : SpellsExponent (letter :: cs) e

/-- The number that a sign, digits on the two sides of a point and an exponent stand for. -/
def spelledValue (negative : Bool) (whole fraction : List Char) (e : Int) : Rat :=
  signed negative (Nat.ofDigitChars 10 (whole ++ fraction) 0) *
    (10 : Rat) ^ (e - fraction.length)

/-- `cs` is read as `x`, whatever blanks stand around it. -/
def IsReadAs (cs : List Char) (x : Decimal) : Prop :=
  ∀ before after : List Char, (∀ c ∈ before, isBlank c = true) → (∀ c ∈ after, isBlank c = true) →
    ofText (String.ofList (before ++ (cs ++ after))) = .ok x

theorem isReadAs_of_read? {cs : List Char} {x : Decimal} (hvisible : ∀ c ∈ cs, isBlank c = false)
    (h : read? cs = some x) : IsReadAs cs x := by
  intro before after hbefore hafter
  unfold ofText
  rw [String.toList_ofList, (isTrimmed_of_visible hvisible).trim_between hbefore hafter]
  dsimp only
  rw [h]

/-! ## Characters -/

theorem contains_point_signedText {negative : Bool} {whole fraction : List Char}
    (hdigits : ∀ c ∈ whole ++ fraction, c.isDigit = true) :
    (signedText negative whole fraction).contains '.' = decide (fraction ≠ []) := by
  rw [Bool.eq_iff_iff, List.contains_iff_mem, decide_eq_true_iff]
  constructor
  · rintro hmem rfl
    have hwhole : '.' ∉ whole := fun h =>
      absurd (hdigits '.' (List.mem_append_left _ h)) (by decide)
    cases negative <;> simp [signedText, hwhole] at hmem
  · intro h
    simp [signedText, h]

theorem SpellsInteger.chars {cs : List Char} {n : Int} (h : SpellsInteger cs n) :
    ∀ c ∈ cs, c.isDigit = true ∨ c = '+' ∨ c = '-' := by
  intro c hc
  cases h with
  | unsigned _ hdigits => exact Or.inl (hdigits c hc)
  | plus _ hdigits =>
    rcases List.mem_cons.1 hc with hsign | hdigit
    · exact Or.inr (Or.inl hsign)
    · exact Or.inl (hdigits c hdigit)
  | minus _ hdigits =>
    rcases List.mem_cons.1 hc with hsign | hdigit
    · exact Or.inr (Or.inr hsign)
    · exact Or.inl (hdigits c hdigit)

theorem SpellsExponent.visible {tail : List Char} {e : Int} (h : SpellsExponent tail e) :
    ∀ c ∈ tail, isBlank c = false := by
  intro c hc
  cases h with
  | none => cases hc
  | scaled hletter hcs =>
    rcases List.mem_cons.1 hc with rfl | hinteger
    · rcases hletter with rfl | rfl <;> decide
    · rcases hcs.chars c hinteger with hdigit | rfl | rfl
      · exact isBlank_of_isDigit hdigit
      · decide
      · decide

theorem visible_signedText {negative : Bool} {whole fraction : List Char}
    (hdigits : ∀ c ∈ whole ++ fraction, c.isDigit = true) :
    ∀ c ∈ signedText negative whole fraction, isBlank c = false := by
  intro c hc
  rcases mem_signedText hc with hdigit | rfl | rfl
  · exact isBlank_of_isDigit (hdigits c hdigit)
  · decide
  · decide

/-! ## Reading digits -/

section Digits

variable {ds : List Char}

theorem filter_gap (hdigits : ∀ c ∈ ds, c.isDigit = true) : ds.filter (· != '_') = ds :=
  List.filter_eq_self.2 fun c hc => bne_iff_ne.2 (ne_of_isDigit (hdigits c hc) rfl)

theorem readDigits?_of_digits (hne : ds ≠ []) (hdigits : ∀ c ∈ ds, c.isDigit = true) :
    readDigits? ds = some (Nat.ofDigitChars 10 ds 0) := by
  have hall : ds.all isDigitOrGap = true := by
    rw [List.all_eq_true]
    intro c hc
    rw [isDigitOrGap, hdigits c hc, Bool.true_or]
  rw [readDigits?, if_pos ⟨hne, hall⟩, filter_gap hdigits]

theorem readNatural?_of_digits (hne : ds ≠ []) (hdigits : ∀ c ∈ ds, c.isDigit = true) :
    readNatural? ds = some (Nat.ofDigitChars 10 ds 0) := by
  unfold readNatural?
  split
  · exact absurd (hdigits '+' List.mem_cons_self) (by decide)
  · exact readDigits?_of_digits hne hdigits

theorem readSide?_of_digits (hne : ds ≠ []) (hdigits : ∀ c ∈ ds, c.isDigit = true) :
    readSide? ds = some (Nat.ofDigitChars 10 ds 0) := by
  rw [readSide?, if_neg hne, readNatural?_of_digits hne hdigits]

/-- No digit is taken for a sign. -/
theorem splitSign_digits (hne : ds ≠ []) (hdigits : ∀ c ∈ ds, c.isDigit = true)
    (rest : List Char) : splitSign (ds ++ rest) = (false, ds ++ rest) := by
  obtain ⟨c, cs, rfl⟩ := List.exists_cons_of_ne_nil hne
  have hdigit := hdigits c List.mem_cons_self
  exact splitSign_of_ne (ne_of_isDigit hdigit rfl) (ne_of_isDigit hdigit rfl) (cs ++ rest)

end Digits

theorem splitSign_signedText (negative : Bool) {whole fraction : List Char} (hwhole : whole ≠ [])
    (hdigits : ∀ c ∈ whole ++ fraction, c.isDigit = true) (tail : List Char) :
    splitSign (signedText negative whole fraction ++ tail) =
      (negative, signedText false whole fraction ++ tail) := by
  cases negative with
  | true => rfl
  | false =>
    have hsplit := splitSign_digits hwhole (fun c hc => hdigits c (List.mem_append_left _ hc))
      ((if fraction = [] then [] else '.' :: fraction) ++ tail)
    rw [← List.append_assoc] at hsplit
    exact hsplit

/-- Digits with a point among them or without one.  A fraction of zeros only is dropped. -/
theorem exists_readMantissa?_signedText {whole fraction : List Char} (hwhole : whole ≠ [])
    (hdigits : ∀ c ∈ whole ++ fraction, c.isDigit = true) :
    ∃ n places : Nat, readMantissa? (signedText false whole fraction) = some (n, places) ∧
      (n : Rat) * (10 : Rat) ^ (-(places : Int)) =
        Nat.ofDigitChars 10 (whole ++ fraction) 0 * (10 : Rat) ^ (-(fraction.length : Int)) := by
  have hwholeDigits : ∀ c ∈ whole, c.isDigit = true :=
    fun c hc => hdigits c (List.mem_append_left _ hc)
  have hfractionDigits : ∀ c ∈ fraction, c.isDigit = true :=
    fun c hc => hdigits c (List.mem_append_right _ hc)
  have hpoint : ∀ c ∈ whole, (c == '.') = false :=
    fun c hc => beq_eq_false_iff_ne.2 (ne_of_isDigit (hwholeDigits c hc) rfl)
  by_cases hfraction : fraction = []
  · subst hfraction
    refine ⟨Nat.ofDigitChars 10 whole 0, 0, ?_, by rw [List.append_nil]; rfl⟩
    have htext : signedText false whole [] = whole := List.append_nil whole
    rw [htext, readMantissa?, splitFirst_eq_none_iff.2 hpoint]
    dsimp only
    rw [readNatural?_of_digits hwhole hwholeDigits, Option.map_some]
  · have htext : signedText false whole fraction = whole ++ '.' :: fraction := by
      unfold signedText
      rw [if_neg hfraction]
      rfl
    have hvalue : Nat.ofDigitChars 10 (whole ++ fraction) 0 =
        Nat.ofDigitChars 10 whole 0 * 10 ^ fraction.length + Nat.ofDigitChars 10 fraction 0 := by
      rw [Nat.ofDigitChars_append, Nat.ofDigitChars_eq_ofDigitChars_zero, Nat.mul_comm]
    have hsplit := splitFirst_append hpoint (c := '.') rfl fraction
    rw [htext, hvalue]
    unfold readMantissa?
    rw [hsplit]
    split
    · next heq => cases heq
    · next heq => exact absurd (Prod.mk.inj (Option.some.inj heq)).1 hwhole
    · next heq =>
      obtain ⟨rfl, rfl⟩ := Prod.mk.inj (Option.some.inj heq)
      rw [readSide?_of_digits hwhole hwholeDigits, readSide?_of_digits hfraction hfractionDigits]
      by_cases hzero : Nat.ofDigitChars 10 fraction 0 = 0
      · refine ⟨Nat.ofDigitChars 10 whole 0, 0, by simp [hzero], ?_⟩
        rw [hzero, Nat.add_zero, Nat.cast_zero, neg_zero, zpow_zero, mul_one, zpow_neg,
          zpow_natCast]
        push_cast
        rw [mul_inv_cancel_right₀ (by positivity)]
      · refine ⟨_, fraction.length, ?_, rfl⟩
        simp [hzero, filter_gap hfractionDigits]

/-! ## Reading integers and exponents -/

theorem SpellsInteger.splitSign {cs : List Char} {n : Int} (h : SpellsInteger cs n) :
    ∃ (negative : Bool) (ds : List Char), Text.splitSign cs = (negative, ds) ∧ ds ≠ [] ∧
      (∀ c ∈ ds, c.isDigit = true) ∧ signed negative (Nat.ofDigitChars 10 ds 0) = n := by
  cases h with
  | unsigned hne hdigits =>
    have hsplit := splitSign_digits hne hdigits []
    rw [List.append_nil] at hsplit
    exact ⟨false, _, hsplit, hne, hdigits, rfl⟩
  | plus hne hdigits => exact ⟨false, _, rfl, hne, hdigits, rfl⟩
  | minus hne hdigits => exact ⟨true, _, rfl, hne, hdigits, rfl⟩

theorem SpellsInteger.readExponent? {cs : List Char} {e : Int} (h : SpellsInteger cs e)
    (hrange : exponentRange e = true) : Decimal.readExponent? cs = some e := by
  obtain ⟨negative, ds, hsplit, hne, hdigits, hvalue⟩ := h.splitSign
  unfold Decimal.readExponent?
  rw [hsplit]
  dsimp only
  rw [if_pos ⟨hne, List.all_eq_true.2 hdigits⟩, hvalue, Option.filter_some, if_pos hrange]

theorem readInteger?_signedText (negative : Bool) {ds : List Char} (hne : ds ≠ [])
    (hdigits : ∀ c ∈ ds, c.isDigit = true) :
    readInteger? (signedText negative ds []) =
      some (signed negative (Nat.ofDigitChars 10 ds 0)) := by
  have hsplit : Text.splitSign (signedText negative ds [] ++ []) =
      (negative, signedText false ds [] ++ []) :=
    splitSign_signedText negative hne (by rwa [List.append_nil]) []
  have htext : signedText false ds [] ++ [] = ds := by
    rw [List.append_nil]
    exact List.append_nil ds
  rw [List.append_nil, htext] at hsplit
  unfold readInteger?
  rw [hsplit]
  dsimp only
  rw [readDigits?_of_digits hne hdigits, Option.map_some]

/-! ## Reading numbers -/

theorem cast_signed (negative : Bool) (n : Nat) :
    (signed negative n : Rat) = (if negative then -1 else 1) * n := by
  cases negative
  · exact (one_mul _).symm
  · rw [signed, if_pos rfl, if_pos rfl, Int.cast_neg, Int.cast_natCast, neg_one_mul]

section Numbers

variable (negative : Bool) {whole fraction tail : List Char} {e : Int} (hwhole : whole ≠ [])
  (hdigits : ∀ c ∈ whole ++ fraction, c.isDigit = true) (htail : SpellsExponent tail e)
  (hrange : exponentRange e = true)

include hwhole hdigits htail hrange

/-- The path for numbers with a point, which takes numbers without an exponent as well. -/
theorem exists_readPointed?_signedText :
    ∃ s f : Int, readPointed? (signedText negative whole fraction ++ tail) =
        some (rounded s f workingPrecision) ∧
      (s : Rat) * (10 : Rat) ^ f = spelledValue negative whole fraction e := by
  obtain ⟨n, places, hread, hvalue⟩ := exists_readMantissa?_signedText hwhole hdigits
  have hmarks : ∀ c ∈ signedText false whole fraction, isExponentMark c = false := by
    intro c hc
    rcases mem_signedText hc with hdigit | rfl | rfl
    · simp [isExponentMark, ne_of_isDigit (hdigits c hdigit)]
    · rfl
    · rfl
  refine ⟨signed negative n, e - places, ?_, ?_⟩
  · unfold readPointed?
    rw [splitSign_signedText negative hwhole hdigits]
    dsimp only
    cases htail with
    | none =>
      rw [List.append_nil, splitLast_eq_none hmarks]
      dsimp only
      rw [Option.bind_eq_bind, Option.bind_some, hread]
      rfl
    | @scaled letter hletter cs e hcs =>
      have hexponent : ∀ c ∈ cs, isExponentMark c = false := by
        intro c hc
        rcases hcs.chars c hc with hdigit | rfl | rfl
        · simp [isExponentMark, ne_of_isDigit hdigit]
        · rfl
        · rfl
      rw [splitLast_append hexponent (by rcases hletter with rfl | rfl <;> rfl)]
      dsimp only
      rw [hcs.readExponent? hrange, Option.map_some, Option.bind_eq_bind, Option.bind_some, hread]
      rfl
  · rw [spelledValue, cast_signed, cast_signed, sub_eq_add_neg, sub_eq_add_neg,
      zpow_add₀ (by norm_num), zpow_add₀ (by norm_num), mul_mul_mul_comm, hvalue, mul_mul_mul_comm]

/-- However a number is spelled, it is read as its value, rounded once. -/
theorem exists_read?_signedText :
    ∃ s f : Int, read? (signedText negative whole fraction ++ tail) =
        some (rounded s f workingPrecision) ∧
      (s : Rat) * (10 : Rat) ^ f = spelledValue negative whole fraction e := by
  have hpointed := exists_readPointed?_signedText negative hwhole hdigits htail hrange
  have hletters : ∀ c ∈ signedText negative whole fraction, (c == 'e' || c == 'E') = false := by
    intro c hc
    rcases mem_signedText hc with hdigit | rfl | rfl
    · simp [ne_of_isDigit (hdigits c hdigit)]
    · rfl
    · rfl
  cases htail with
  | none =>
    unfold read?
    rw [splitFirst_eq_none_iff.2 (by rwa [List.append_nil])]
    exact hpointed
  | @scaled letter hletter cs e hcs =>
    have hsplit := splitFirst_append hletters (c := letter)
      (by rcases hletter with rfl | rfl <;> rfl) cs
    unfold read?
    rw [hsplit]
    dsimp only
    rw [contains_point_signedText hdigits]
    by_cases hfraction : fraction = []
    · subst hfraction
      rw [List.append_nil] at hdigits
      refine ⟨signed negative (Nat.ofDigitChars 10 whole 0), e, ?_, ?_⟩
      · rw [if_neg (by simp), readScaled?, readInteger?_signedText negative hwhole hdigits,
          hcs.readExponent? hrange]
        rfl
      · rw [spelledValue, List.append_nil, List.length_nil, Nat.cast_zero, sub_zero]
    · rw [if_pos (decide_eq_true hfraction)]
      exact hpointed

/-- All spellings of a number are read alike, whatever blanks stand around them. -/
theorem isReadAs_signedText :
    IsReadAs (signedText negative whole fraction ++ tail)
      (rounded (signed negative (Nat.ofDigitChars 10 (whole ++ fraction) 0)) (e - fraction.length)
        workingPrecision) := by
  obtain ⟨s, f, hread, hvalue⟩ := exists_read?_signedText negative hwhole hdigits htail hrange
  rw [← rounded_congr (by decide) hvalue]
  apply isReadAs_of_read? _ hread
  intro c hc
  rcases List.mem_append.1 hc with hnumber | hexponent
  · exact visible_signedText hdigits c hnumber
  · exact htail.visible c hexponent

end Numbers

/-- The point may be traded for a smaller exponent: a number with digits on both sides of a point
and the number without the point are read as the same decimal, which is the exact value rounded half
away from zero to fifty digits, and each may be read without an exponent. -/
theorem ofText_spellings (negative : Bool) {a b : List Char} {k : Int} (ha : a ≠ [])
    (hdigits : ∀ c ∈ a ++ b, c.isDigit = true) (hb : b.length < 2 ^ 60) (hk : |k| < 2 ^ 62) :
    (∃ x : Decimal, x.toRat = toDigits (spelledValue negative a b k) 50 ∧
        (∀ tail, SpellsExponent tail k → IsReadAs (signedText negative a b ++ tail) x) ∧
        ∀ tail, SpellsExponent tail (k - b.length) →
          IsReadAs (signedText negative (a ++ b) [] ++ tail) x) ∧
      (∃ x : Decimal, x.toRat = toDigits (spelledValue negative a b 0) 50 ∧
        IsReadAs (signedText negative a b) x) ∧
      ∃ x : Decimal, x.toRat = toDigits (spelledValue negative a [] 0) 50 ∧
        IsReadAs (signedText negative a []) x := by
  have hrange : ∀ e : Int, |e - k| < 2 ^ 60 → exponentRange e = true := by
    intro e he
    rw [abs_lt] at he hk
    rw [exponentRange_iff]
    omega
  refine ⟨⟨_, toRat_rounded_eq_toDigits _ _ (by decide), ?_, ?_⟩,
    ⟨_, toRat_rounded_eq_toDigits _ _ (by decide), ?_⟩,
    ⟨_, toRat_rounded_eq_toDigits _ _ (by decide), ?_⟩⟩
  · intro tail htail
    exact isReadAs_signedText negative ha hdigits htail (hrange k (by simp))
  · intro tail htail
    have hnear : |k - b.length - k| < 2 ^ 60 := by
      rw [sub_sub_cancel_left, abs_neg, Nat.abs_cast]
      exact_mod_cast hb
    have hread : IsReadAs (signedText negative (a ++ b) [] ++ tail) _ :=
      isReadAs_signedText negative (List.append_ne_nil_of_left_ne_nil ha b)
        (by rwa [List.append_nil]) htail (hrange _ hnear)
    rwa [List.append_nil, List.length_nil, Nat.cast_zero, sub_zero] at hread
  · have hread := isReadAs_signedText negative ha hdigits SpellsExponent.none (by decide)
    rwa [List.append_nil] at hread
  · have hread : IsReadAs (signedText negative a [] ++ []) _ :=
      isReadAs_signedText negative ha
        (fun c hc => hdigits c (List.mem_append_left b (by rwa [List.append_nil] at hc)))
        SpellsExponent.none (by decide)
    rwa [List.append_nil] at hread

theorem ofText_spellings_halfway :
    let a := ['1']
    let b := List.replicate 49 '0' ++ ['5']
    a ≠ [] ∧ (∀ c ∈ a ++ b, c.isDigit = true) ∧ b.length < 2 ^ 60 ∧ |(3 : Int)| < 2 ^ 62 ∧
      ∃ x : Decimal, x.toRat = toDigits (spelledValue true a b 3) 50 ∧
        ofText (String.ofList ([' '] ++ (signedText true a b ++ ['E', '+', '3'] ++ []))) = .ok x ∧
        ofText (String.ofList
          ([] ++ (signedText true (a ++ b) [] ++ ['e', '-', '4', '7'] ++ ['\t']))) = .ok x := by
  have hdigits : ∀ c ∈ ['1'] ++ (List.replicate 49 '0' ++ ['5']), c.isDigit = true := by simp
  obtain ⟨⟨x, hvalue, hpoint, hnone⟩, -, -⟩ := ofText_spellings true (a := ['1'])
    (b := List.replicate 49 '0' ++ ['5']) (k := 3) (by simp) hdigits (by simp) (by norm_num)
  refine ⟨by simp, hdigits, by simp, by norm_num, x, hvalue, ?_, ?_⟩
  · exact hpoint ['E', '+', '3'] (.scaled (Or.inr rfl) (.plus (by simp) (by simp)))
      [' '] [] (List.forall_mem_singleton.2 (by decide)) (List.forall_mem_nil _)
  · exact hnone ['e', '-', '4', '7'] (.scaled (Or.inl rfl) (.minus (by simp) (by simp)))
      [] ['\t'] (List.forall_mem_nil _) (List.forall_mem_singleton.2 (by decide))

end UnitLedger.Decimal
