import UnitLedger.Proofs.Entry.Literal
import UnitLedger.Proofs.Entry.Token
set_option autoImplicit false

/-! # Typing what the registry knows

Every spelling of a unit that the registry knows can be typed behind a number, with blanks or
without, and is stored as that unit (`parse?_registered`).  The caret is left out of keys and is no
letter, so it alone cannot stand first.
-/

namespace UnitLedger.Entry

open Text Binary64 UnitLedger.Symbol Registry

/-! ## The text of an entry -/

set_option maxRecDepth 4000 in
theorem number_char_ascii : ∀ n < 128,
    (Char.ofNat n).isDigit = true ∨ Char.ofNat n = '.' →
      isAlphabetic (Char.ofNat n) = false ∧ isBlank (Char.ofNat n) = false := by
  decide

/-- A blank or a letter does not go on with a number. -/
theorem ends_number {c : Char} (h : isBlank c = true ∨ isAlphabetic c = true) :
    c.isDigit = false ∧ c ≠ '.' := by
  have hself : Char.ofNat c.toNat = c := Char.ofNat_toNat c
  have hnumber : ¬ (c.isDigit = true ∨ c = '.') := by
    intro hc
    have hlow : c.toNat < 128 := by
      rcases hc with hdigit | rfl
      · rw [Char.isDigit_iff_toNat] at hdigit
        have hnine : '9'.toNat = 57 := rfl
        omega
      · decide
    have hnone := number_char_ascii _ hlow (by rwa [hself])
    rw [hself] at hnone
    rcases h with hblank | hletter
    · rw [hnone.2] at hblank
      cases hblank
    · rw [hnone.1] at hletter
      cases hletter
  rw [not_or, Bool.not_eq_true] at hnumber
  exact hnumber

theorem ne_comma_of_isBlank {c : Char} (h : isBlank c = true) : c ≠ ',' := by
  rintro rfl
  exact absurd h (by decide)

section

variable {symbol : String} {u : MeasureUnit} (hu : builtin.find? symbol = some u)
include hu

/-- A symbol that is found is more than blanks. -/
theorem trim_ne_nil_of_find? : trim symbol.toList ≠ [] := by
  intro hnil
  have hword := isWordKey_of_find? hu
  rw [Symbol.key, hnil] at hword
  exact hword

/-- A symbol that is found starts with a letter, unless it starts with a caret. -/
theorem first_isAlphabetic (hcaret : (trim symbol.toList).head? ≠ some '^') :
    ∀ c ∈ (trim symbol.toList).head?, isAlphabetic c = true := by
  intro c hc
  obtain ⟨cs, hcs⟩ := List.head?_eq_some_iff.1 hc
  have hword := isWordKey_of_find? hu
  rw [Symbol.key, hcs] at hword
  rw [hcs] at hcaret
  exact isAlphabetic_of_isWordKey hword fun h => hcaret (congrArg some h)

/-- A literal, blanks and a symbol that is found are read as a number and a token. -/
theorem takeNumber?_clean (l : DecimalLiteral) {blanks : List Char}
    (hblanks : ∀ c ∈ blanks, isBlank c = true)
    (hcaret : (trim symbol.toList).head? ≠ some '^') :
    ∃ rest, takeNumber? (clean (String.ofList (l.text ++ blanks) ++ symbol)) =
        some (l.double, rest) ∧ trim rest = trim symbol.toList := by
  obtain ⟨before, after, hbefore, hafter, hsymbol⟩ := exists_eq_trim symbol.toList
  have htrimmed := isTrimmed_trim symbol.toList
  have hne := trim_ne_nil_of_find? hu
  have hletter := first_isAlphabetic hu hcaret
  have hplain := not_isForeign_of_find? hu
  generalize trim symbol.toList = token at *
  have hgap : ∀ c ∈ blanks ++ before, isBlank c = true := by
    intro c hc
    exact (List.mem_append.1 hc).elim (hblanks c) (hbefore c)
  have hcore : IsTrimmed (l.text ++ (blanks ++ before ++ token)) := by
    apply IsTrimmed.append l.text_ne_nil
    · exact fun c hc => (l.text_chars c (List.mem_of_mem_head? hc)).1
    · exact List.append_ne_nil_of_right_ne_nil _ hne
    · rw [List.getLast?_append_of_ne_nil _ hne]
      exact htrimmed.last
  refine ⟨blanks ++ before ++ token, ?_, ?_⟩
  · have hshape : (String.ofList (l.text ++ blanks) ++ symbol).toList =
        [] ++ (l.text ++ (blanks ++ before ++ token) ++ after) := by
      rw [String.toList_append, String.toList_ofList, hsymbol]
      simp only [List.append_assoc, List.nil_append]
    unfold clean
    rw [hshape, hcore.trim_between (fun c hc => absurd hc List.not_mem_nil) hafter,
      List.filter_eq_self.2]
    · apply takeNumber?_text
      intro c hc
      apply ends_number
      rw [List.head?_append] at hc
      cases hfirst : (blanks ++ before).head? with
      | none =>
        rw [hfirst] at hc
        exact Or.inr (hletter c hc)
      | some d =>
        rw [hfirst] at hc
        cases hc
        exact Or.inl (hgap c (List.mem_of_mem_head? hfirst))
    · intro c hc
      rw [bne_iff_ne]
      rcases List.mem_append.1 hc with hnumber | hrest
      · exact (l.text_chars c hnumber).2
      · rcases List.mem_append.1 hrest with hblank | htoken
        · exact ne_comma_of_isBlank (hgap c hblank)
        · exact (isTokenChar_of_plain fun hforeign => hplain (isForeign_of_mem hforeign htoken)).2
  · have hbetween := htrimmed.trim_between hgap fun c hc => absurd hc List.not_mem_nil
    rwa [List.append_nil] at hbetween

end

/-! ## Reading and storing -/

/-- The token of a symbol that is found is stored as its unit, in a field of the dimension of the
unit; in any other field it is unknown. -/
theorem store_of_find? {unit : String} {u : MeasureUnit} (hu : builtin.find? unit = some u)
    (y : Finite) (system : EntrySystem) (d : Dimension) (defaultUnit : String) :
    store ⟨y, some unit, system⟩ d defaultUnit =
      if d = u.dimension then StoredQuantity.ofValue u.dimension (.finite y) u.symbol
      else .error (.unknownUnit d.name unit) := by
  unfold store StoredQuantity.ofValue
  by_cases hd : d = u.dimension
  · have hunit : builtin.lookup u.dimension unit = .ok u := lookup_eq_ok_iff.2 ⟨hu, rfl⟩
    have hsymbol : builtin.lookup u.dimension u.symbol = .ok u :=
      lookup_eq_ok_iff.2 ⟨find?_symbol u (mem_units_of_find? hu), rfl⟩
    rw [if_pos hd, hd, Option.getD_some, hunit, hsymbol]
  · have hunknown : builtin.lookup d unit = .error (.unknownUnit d.name unit) := by
      unfold Registry.lookup
      rw [hu]
      exact if_neg (Ne.symm hd)
    rw [if_neg hd, Option.getD_some, hunknown]
    rfl

/-- Every spelling that the registry knows can be typed behind a number and is stored as its unit.
A decimal literal whose double is finite, blanks or none, and a symbol that names a unit, without a
caret in front, are read as the double, the symbol in upper case and the family of the unit; a field
of the dimension of the unit stores the double in the unit, whatever its default unit is, and every
other field refuses the entry as of an unknown unit. -/
theorem parse?_registered {l : DecimalLiteral} {y : Finite} {blanks : List Char} {symbol : String}
    {u : MeasureUnit} (hy : l.double = .finite y) (hblanks : ∀ c ∈ blanks, isBlank c = true)
    (hu : builtin.find? symbol = some u)
    (hcaret : (trim symbol.toList).head? ≠ some '^') :
    ∃ e, parse? (String.ofList (l.text ++ blanks) ++ symbol) = some e ∧
      e = ⟨y, some (String.ofList (upperCase.text (trim symbol.toList))),
        if u.dimension.isCount then .each else .ofSystem u.system⟩ ∧
      ∀ (d : Dimension) (defaultUnit : String), e.store d defaultUnit =
        if d = u.dimension then StoredQuantity.ofValue u.dimension (.finite y) u.symbol
        else .error (.unknownUnit d.name
          (String.ofList (upperCase.text (trim symbol.toList)))) := by
  obtain ⟨rest, htake, htoken⟩ := takeNumber?_clean hu l hblanks hcaret
  have hupper := find?_upper_of_find? hu
  refine ⟨_, ?_, rfl, fun d defaultUnit => store_of_find? hupper y _ d defaultUnit⟩
  unfold parse?
  rw [htake, hy]
  dsimp only
  rw [htoken, if_neg (trim_ne_nil_of_find? hu), tokenUnit?_of_find? hu hcaret, Option.map_some,
    classify_of_find? hupper]

/-- `+5.`, a literal that ends with its point. -/
def plusFive : DecimalLiteral where
  sign := .plus
  whole := ['5']
  fraction := some []
  whole_digits := by decide
  fraction_digits := by decide
  nonempty := by decide

/-- Behind it a wide blank, and kilograms with the Kelvin sign, which upper case leaves alone. -/
theorem parse?_registered_kelvin :
    plusFive.double = .finite ⟨false, 5629499534213120, -50, by decide⟩ ∧
      (∀ c ∈ ['\u3000'], isBlank c = true) ∧
      builtin.find? "\u212Ag " =
        some ⟨"kg", "kilogram", .weight, .metric, ⟨1, 6, 50, by decide⟩⟩ ∧
      (trim "\u212Ag ".toList).head? ≠ some '^' ∧
      ∃ e, parse? (String.ofList (plusFive.text ++ ['\u3000']) ++ "\u212Ag ") = some e ∧
        e = ⟨⟨false, 5629499534213120, -50, by decide⟩,
          some (String.ofList (upperCase.text (trim "\u212Ag ".toList))), .metric⟩ ∧
        ∀ (d : Dimension) (defaultUnit : String), e.store d defaultUnit =
          if d = .weight then
            StoredQuantity.ofValue .weight (.finite ⟨false, 5629499534213120, -50, by decide⟩) "kg"
          else .error (.unknownUnit d.name
            (String.ofList (upperCase.text (trim "\u212Ag ".toList)))) := by
  have hdouble : plusFive.double = .finite ⟨false, 5629499534213120, -50, by decide⟩ := by
    decide +kernel
  have hblanks : ∀ c ∈ ['\u3000'], isBlank c = true := by
    intro c hc
    rw [List.mem_singleton.1 hc]
    decide
  have hunit : builtin.find? "\u212Ag " =
      some ⟨"kg", "kilogram", .weight, .metric, ⟨1, 6, 50, by decide⟩⟩ := by
    decide +kernel
  have hcaret : (trim "\u212Ag ".toList).head? ≠ some '^' := by decide
  exact ⟨hdouble, hblanks, hunit, hcaret, parse?_registered hdouble hblanks hunit hcaret⟩

end UnitLedger.Entry
