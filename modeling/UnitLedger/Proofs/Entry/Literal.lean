import UnitLedger.Entry
import UnitLedger.Proofs.Decimal.Places
import UnitLedger.Proofs.Numeral
import UnitLedger.Proofs.Text.Blank
set_option autoImplicit false

/-! # Decimal literals in front of an entry

The literals that an entry can start with, by their grammar (`DecimalLiteral`).  One in front of a
text that does not go on with it is taken off it whole, as the double nearest to it
(`takeNumber?_of_ends`).  The numerals that quantities are shown with are such literals
(`text_ofScaled`).
-/

namespace UnitLedger.Entry

open Text Binary64 Numeral Decimal

/-- What stands before the digits of a number. -/
inductive Sign where
  | none
  | plus
  | minus
  deriving DecidableEq, Repr

def Sign.text : Sign → List Char
  | none => []
  | plus => ['+']
  | minus => ['-']

/-- A sign or none, digits, and perhaps a point and more digits.  There is a digit somewhere. -/
structure DecimalLiteral where
  sign : Sign
  whole : List Char
  /-- The digits behind the point, if there is a point. -/
  fraction : Option (List Char)
  whole_digits : whole.all Char.isDigit = true
  fraction_digits : (fraction.getD []).all Char.isDigit = true
  nonempty : whole ++ fraction.getD [] ≠ []

namespace DecimalLiteral

/-- The point and the digits behind it. -/
def fractionText (l : DecimalLiteral) : List Char :=
  match l.fraction with
  | none => []
  | some digits => '.' :: digits

/-- The text without the sign. -/
def body (l : DecimalLiteral) : List Char := l.whole ++ l.fractionText

def text (l : DecimalLiteral) : List Char := l.sign.text ++ l.body

/-- The double nearest to the number that the literal writes. -/
def double (l : DecimalLiteral) : Binary64 :=
  ofDecimal (decide (l.sign = .minus)) (Nat.ofDigitChars 10 (l.whole ++ l.fraction.getD []) 0)
    (-((l.fraction.getD []).length : Int))

theorem double_eq (l : DecimalLiteral) :
    l.double = (Literal.ofSides l.whole (l.fraction.getD [])).toBinary64
      (decide (l.sign = .minus)) 0 := by
  rw [Literal.toBinary64, zero_sub]
  rfl

/-! ## Characters -/

/-- The first character of the digits and the point is one of them. -/
theorem body_chars (l : DecimalLiteral) : ∀ c ∈ l.body, c.isDigit = true ∨ c = '.' := by
  intro c hc
  rcases List.mem_append.1 hc with hwhole | hrest
  · exact Or.inl (List.all_eq_true.1 l.whole_digits c hwhole)
  · have hdigits := List.all_eq_true.1 l.fraction_digits
    unfold fractionText at hrest
    cases hfraction : l.fraction with
    | none =>
      rw [hfraction] at hrest
      cases hrest
    | some digits =>
      rw [hfraction] at hrest hdigits
      rcases List.mem_cons.1 hrest with hpoint | hdigit
      · exact Or.inr hpoint
      · exact Or.inl (hdigits c hdigit)

theorem body_ne_nil (l : DecimalLiteral) : l.body ≠ [] := by
  intro hnil
  obtain ⟨hwhole, hrest⟩ := List.append_eq_nil_iff.1 hnil
  apply l.nonempty
  unfold fractionText at hrest
  cases hfraction : l.fraction with
  | none => rw [hwhole]; rfl
  | some digits =>
    rw [hfraction] at hrest
    cases hrest

theorem text_ne_nil (l : DecimalLiteral) : l.text ≠ [] :=
  List.append_ne_nil_of_right_ne_nil _ l.body_ne_nil

/-- A literal has no blanks and no commas. -/
theorem text_chars (l : DecimalLiteral) : ∀ c ∈ l.text, isBlank c = false ∧ c ≠ ',' := by
  intro c hc
  rcases List.mem_append.1 hc with hsign | hbody
  · cases hl : l.sign with
    | none =>
      rw [hl] at hsign
      cases hsign
    | plus =>
      rw [hl] at hsign
      rw [List.mem_singleton.1 hsign]
      decide
    | minus =>
      rw [hl] at hsign
      rw [List.mem_singleton.1 hsign]
      decide
  · rcases l.body_chars c hbody with hdigit | rfl
    · exact ⟨isBlank_of_isDigit hdigit, ne_of_isDigit hdigit rfl⟩
    · decide

/-! ## Reading -/

theorem splitSign_text (l : DecimalLiteral) (rest : List Char) :
    splitSign (l.text ++ rest) = (decide (l.sign = .minus), l.body ++ rest) := by
  unfold text
  cases l.sign with
  | plus => rfl
  | minus => rfl
  | none =>
    obtain ⟨c, cs, hcs⟩ := List.exists_cons_of_ne_nil l.body_ne_nil
    have hc := l.body_chars c (hcs ▸ List.mem_cons_self)
    have hsign : c ≠ '-' ∧ c ≠ '+' := by
      rcases hc with hdigit | rfl
      · exact ⟨ne_of_isDigit hdigit rfl, ne_of_isDigit hdigit rfl⟩
      · decide
    rw [hcs]
    exact splitSign_of_ne hsign.1 hsign.2 (cs ++ rest)

/-- The text does not go on with the literal: neither with a digit nor, where the literal has none
yet, with a point. -/
def Ends (l : DecimalLiteral) (rest : List Char) : Prop :=
  ∀ c ∈ rest.head?, c.isDigit = false ∧ (l.fraction = none → c ≠ '.')

theorem take?_body {l : DecimalLiteral} {rest : List Char} (hrest : l.Ends rest) :
    Literal.take? (l.body ++ rest) =
      some (Literal.ofSides l.whole (l.fraction.getD []), rest) := by
  have hnonempty := l.nonempty
  have hwholeDigits := List.all_eq_true.1 l.whole_digits
  have hfractionDigits := List.all_eq_true.1 l.fraction_digits
  unfold body fractionText
  cases hfraction : l.fraction with
  | none =>
    rw [hfraction] at hnonempty
    obtain ⟨hwhole, hdrop⟩ := takeWhile_isDigit_append hwholeDigits fun c hc => (hrest c hc).1
    have hne : l.whole ≠ [] := by simpa using hnonempty
    unfold Literal.take?
    rw [List.append_nil, hwhole, hdrop]
    dsimp only
    split
    · exact absurd rfl ((hrest '.' (by simp)).2 hfraction)
    · rw [if_neg hne]
      rfl
  | some digits =>
    rw [hfraction] at hnonempty hfractionDigits
    have hpoint : ∀ c ∈ ('.' :: (digits ++ rest)).head?, c.isDigit = false := by
      intro c hc
      cases hc
      decide
    obtain ⟨hwhole, hdrop⟩ := takeWhile_isDigit_append hwholeDigits hpoint
    obtain ⟨htake, hend⟩ := takeWhile_isDigit_append hfractionDigits fun c hc => (hrest c hc).1
    rw [List.append_assoc, List.cons_append]
    unfold Literal.take?
    rw [hwhole, hdrop]
    dsimp only
    have hsome : ¬ (l.whole = [] ∧ digits = []) := by
      rintro ⟨hwholeNil, hdigitsNil⟩
      exact hnonempty (by rw [hwholeNil, Option.getD_some, hdigitsNil]; rfl)
    split
    · next after heq =>
      obtain ⟨-, rfl⟩ := List.cons.inj heq
      rw [Option.getD_some] at htake hend
      rw [htake, hend, if_neg hsome]
      rfl
    · next hnot => exact absurd rfl (hnot _)

/-! ## Numerals -/

/-- The literal of `n / 10 ^ places` with exactly `places` fraction digits. -/
def ofScaled (n : Int) (places : Nat) : DecimalLiteral where
  sign := if n < 0 then .minus else .none
  whole := Nat.toDigits 10 (n.natAbs / 10 ^ places)
  fraction := if places = 0 then none else some (padded places (n.natAbs % 10 ^ places))
  whole_digits :=
    List.all_eq_true.2 fun _ hc => isDigit_of_mem_toDigits hc
  fraction_digits := by
    split
    · rfl
    · exact List.all_eq_true.2 fun _ hc => isDigit_of_mem_padded hc
  nonempty := List.append_ne_nil_of_left_ne_nil Nat.toDigits_ne_nil _

theorem body_ofScaled (n : Int) (places : Nat) :
    (ofScaled n places).body = fixedPoint n.natAbs places := by
  unfold body fractionText ofScaled fixedPoint
  by_cases h : places = 0
  · simp [h]
  · simp [h]

theorem text_ofScaled (n : Int) (places : Nat) : (ofScaled n places).text = numeral n places := by
  unfold text numeral
  rw [body_ofScaled, ofScaled]
  by_cases h : n < 0
  · rw [if_pos h, if_pos h]
    rfl
  · rw [if_neg h, if_neg h]
    rfl

/-- The literal with another sign. -/
def withSign (l : DecimalLiteral) (sign : Sign) : DecimalLiteral := { l with sign := sign }

/-- The digits of the numeral, read around its point. -/
theorem ofSides_ofScaled (n : Int) (places : Nat) :
    Literal.ofSides (ofScaled n places).whole ((ofScaled n places).fraction.getD []) =
      ⟨n.natAbs, places⟩ := by
  have hdigits := ofDigitChars_fixedDigits n.natAbs places
  have hlength := length_fraction n.natAbs places
  have hfraction : (ofScaled n places).fraction.getD [] =
      if places = 0 then [] else padded places (n.natAbs % 10 ^ places) := by
    unfold ofScaled
    by_cases h : places = 0
    · simp [h]
    · simp [h]
  rw [hfraction, Literal.ofSides, hlength]
  exact congrArg (fun m => (⟨m, places⟩ : Literal)) hdigits

theorem sign_ofScaled (n : Int) (places : Nat) :
    decide ((ofScaled n places).sign = .minus) = decide (n < 0) := by
  unfold ofScaled
  by_cases h : n < 0
  · simp [h]
  · simp [h]

theorem double_withSign_ofScaled (n : Int) (places : Nat) (sign : Sign) :
    ((ofScaled n places).withSign sign).double =
      (⟨n.natAbs, places⟩ : Literal).toBinary64 (decide (sign = .minus)) 0 := by
  rw [double_eq, ← ofSides_ofScaled]
  rfl

theorem double_ofScaled (n : Int) (places : Nat) :
    (ofScaled n places).double =
      (⟨n.natAbs, places⟩ : Literal).toBinary64 (decide (n < 0)) 0 := by
  rw [double_eq, ofSides_ofScaled, sign_ofScaled]

end DecimalLiteral

/-- A literal is taken off the front of a text that does not go on with it. -/
theorem takeNumber?_of_ends {l : DecimalLiteral} {rest : List Char} (hrest : l.Ends rest) :
    takeNumber? (l.text ++ rest) = some (l.double, rest) := by
  unfold takeNumber?
  rw [l.splitSign_text]
  dsimp only
  rw [DecimalLiteral.take?_body hrest, l.double_eq]
  rfl

theorem takeNumber?_text (l : DecimalLiteral) {rest : List Char}
    (hrest : ∀ c ∈ rest.head?, c.isDigit = false ∧ c ≠ '.') :
    takeNumber? (l.text ++ rest) = some (l.double, rest) :=
  takeNumber?_of_ends fun c hc => ⟨(hrest c hc).1, fun _ => (hrest c hc).2⟩

end UnitLedger.Entry
