import UnitLedger.Proofs.Entry.Grammar
set_option autoImplicit false

/-! # Entries written out

An entry that is written out, as its double and its unit behind a space, is a text again, and not
the one it was read from: quotation marks have become words, commas are gone, digits may have come
or gone, and the unit stands in upper case.  What was read from ASCII characters is read from it
once more (`parse?_printed`).
-/

namespace UnitLedger.Entry

open Text Binary64 Numeral
open Registry (builtin)

/-! ## The text of an entry -/

/-- What stands behind the number: a space and the unit, if there is one. -/
def unitText : Option String → List Char
  | none => []
  | some unit => ' ' :: unit.toList

/-- The quantity and its unit, as a text. -/
def printed (e : Entry) : String :=
  (Binary64.finite e.quantity).text ++ String.ofList (unitText e.unit)

/-- A unit is not taken for a part of the number. -/
theorem head?_unitText (unit : Option String) :
    ∀ c ∈ (unitText unit).head?, c.isDigit = false ∧ c ≠ '.' := by
  cases unit with
  | none => nofun
  | some u =>
    rintro c ⟨⟩
    decide

/-! ## The number -/

/-- The literal that is written for a double. -/
def literalOf (x : Finite) : DecimalLiteral :=
  (DecimalLiteral.ofScaled (x.written.digits * 10 ^ x.written.exponent.toNat : Nat)
    (-x.written.exponent).toNat).withSign (if x.negative then .minus else .none)

theorem text_literalOf (x : Finite) : (literalOf x).text = x.print := by
  have hbody : (literalOf x).body = positional x.written.digits x.written.exponent :=
    DecimalLiteral.body_ofScaled _ _
  unfold DecimalLiteral.text Finite.print
  dsimp only
  rw [hbody, literalOf, DecimalLiteral.withSign]
  cases x.negative <;> rfl

/-- The literal is read as the double that it is written for, negative zero included. -/
theorem double_literalOf (x : Finite) : (literalOf x).double = .finite x := by
  have hsign : decide ((if x.negative then Sign.minus else Sign.none) = .minus) = x.negative := by
    cases x.negative <;> rfl
  unfold literalOf
  rw [DecimalLiteral.double_withSign_ofScaled, hsign, Int.natAbs_natCast, Literal.toBinary64]
  apply ofDecimal_shortest x .up
  show _ = (x.written.digits : Rat) * (10 : Rat) ^ x.written.exponent
  dsimp only
  rw [zpow_eq_div_pow_toNat 10 x.written.exponent, zero_sub, zpow_neg, zpow_natCast]
  push_cast
  ring

/-! ## The unit -/

/-- A capital letter of ASCII. -/
def IsCapital (c : Char) : Prop := 65 ≤ c.toNat ∧ c.toNat ≤ 90

theorem toUpper_ascii_cases : ∀ n < 128, (Char.ofNat n).toUpper = Char.ofNat n ∨
    (65 ≤ (Char.ofNat n).toUpper.toNat ∧ (Char.ofNat n).toUpper.toNat ≤ 90) := by
  decide

theorem capital_classes : ∀ n < 91, 65 ≤ n →
    isAlphabetic (Char.ofNat n) = true ∧ isTokenChar (Char.ofNat n) = true := by
  decide

/-- An ASCII character is its own upper case or has a capital letter for it. -/
theorem toUpper_eq_or_isCapital {c : Char} (h : c.toNat < 128) :
    c.toUpper = c ∨ IsCapital c.toUpper := by
  have hcases := toUpper_ascii_cases _ h
  rwa [Char.ofNat_toNat] at hcases

theorem IsCapital.classes {c : Char} (h : IsCapital c) :
    isAlphabetic c = true ∧ isTokenChar c = true := by
  have hclasses := capital_classes c.toNat (Nat.lt_succ_of_le h.2) h.1
  rwa [Char.ofNat_toNat] at hclasses

theorem IsCapital.ne_digit_or_space {c : Char} (h : IsCapital c) :
    ¬ (c.isDigit = true ∨ c = ' ') := by
  rintro (hdigit | rfl)
  · have hbound := Char.isDigit_iff_toNat.1 hdigit
    have hnine : '9'.toNat = 57 := rfl
    have hcapital := h.1
    omega
  · exact absurd h.1 (by decide)

theorem IsCapital.toUpper_eq {c : Char} (h : IsCapital c) : c.toUpper = c := by
  unfold Char.toUpper
  rw [dif_neg]
  intro hsmall
  have hle : 97 ≤ c.toNat := UInt32.le_iff_toNat_le.1 hsmall.1
  exact absurd h.2 (by omega)

/-- All characters are ASCII. -/
def IsAscii (cs : List Char) : Prop := ∀ c ∈ cs, c.toNat < 128

theorem upperCase_text_ascii {cs : List Char} (h : IsAscii cs) :
    upperCase.text cs = cs.map Char.toUpper := by
  rw [CaseMap.text, List.flatMap_congr fun c hc => upperCase_char_ascii (h c hc),
    ← List.map_eq_flatMap]

theorem isAscii_upper {cs : List Char} (h : IsAscii cs) : IsAscii (cs.map Char.toUpper) := by
  intro d hd
  obtain ⟨c, hc, rfl⟩ := List.mem_map.1 hd
  rcases toUpper_eq_or_isCapital (h c hc) with hsame | hcapital
  · rw [hsame]
    exact h c hc
  · exact hcapital.2.trans_lt (by decide)

/-- Upper case of upper case is upper case. -/
theorem map_toUpper_twice {cs : List Char} (h : IsAscii cs) :
    (cs.map Char.toUpper).map Char.toUpper = cs.map Char.toUpper := by
  rw [List.map_map]
  apply List.map_congr_left
  intro c hc
  rcases toUpper_eq_or_isCapital (h c hc) with hsame | hcapital
  · exact congrArg Char.toUpper hsame
  · exact hcapital.toUpper_eq

/-- A word of ASCII characters gives in upper case what it gives. -/
theorem names_upper {c : Char} {cs : List Char} (hascii : IsAscii (c :: cs))
    (htrimmed : IsTrimmed (c :: cs)) (hletter : isAlphabetic c = true)
    (hcs : ∀ d ∈ cs, isAlphanumeric d = true ∨ d ∈ ['²', '³', '^', '_', '-', ' '])
    (hknown : (∃ d ∈ c :: cs, d.isDigit = true ∨ d = ' ') →
      ∃ u, builtin.find? (String.ofList (c :: cs)) = some u) :
    Names (upperCase.text (c :: cs)) (some (String.ofList (upperCase.text (c :: cs)))) := by
  have hupper := upperCase_text_ascii hascii
  have htwice : upperCase.text ((c :: cs).map Char.toUpper) = (c :: cs).map Char.toUpper := by
    rw [upperCase_text_ascii (isAscii_upper hascii), map_toUpper_twice hascii]
  have hfound : (∃ d ∈ (c :: cs).map Char.toUpper, d.isDigit = true ∨ d = ' ') →
      ∃ u, builtin.find? (String.ofList ((c :: cs).map Char.toUpper)) = some u := by
    rintro ⟨d, hd, hspecial⟩
    obtain ⟨b, hb, rfl⟩ := List.mem_map.1 hd
    -- no digit and no space comes from a letter
    have hsame : b.toUpper = b := by
      refine (toUpper_eq_or_isCapital (hascii b hb)).resolve_right fun hcapital => ?_
      exact hcapital.ne_digit_or_space hspecial
    rw [hsame] at hspecial
    obtain ⟨u, hu⟩ := hknown ⟨b, hb, hspecial⟩
    have hfind := Registry.find?_upper_of_find? hu
    rw [String.toList_ofList, htrimmed.trim_eq, hupper] at hfind
    exact ⟨u, hfind⟩
  rw [hupper, ← htwice]
  conv => lhs; rw [htwice]
  refine .word ?_ ?_ hfound
  · rcases toUpper_eq_or_isCapital (hascii c List.mem_cons_self) with hsame | hcapital
    · rwa [hsame]
    · exact hcapital.classes.1
  · intro d hd
    obtain ⟨b, hb, rfl⟩ := List.mem_map.1 hd
    rcases toUpper_eq_or_isCapital (hascii b (List.mem_cons_of_mem c hb)) with hsame | hcapital
    · rw [hsame]
      exact hcs b hb
    · exact (isTokenChar_iff _).1 hcapital.classes.2

theorem isTrimmed_upper {token : List Char} (h : IsTrimmed token) :
    IsTrimmed (upperCase.text token) :=
  h.flatMap keepsVisible_upperCase

/-- The unit that a token of ASCII characters gives is a token for itself. -/
theorem names_unit {token : List Char} {unit : String} (hascii : IsAscii token)
    (htrimmed : IsTrimmed token) (h : Names token (some unit)) :
    Names unit.toList (some unit) ∧ IsTrimmed unit.toList := by
  -- a quotation mark stands for a word, which must be accepted where the mark was
  have hquoted : ∀ u ∈ ["INCH", "FT"], u.toList ≠ [] ∧ tokenUnit? u.toList = some u.toList ∧
      u.toList.any isBlank = false := by
    decide
  have hself : ∀ u ∈ ["INCH", "FT"], Names u.toList (some u) ∧ IsTrimmed u.toList := by
    intro u hu
    obtain ⟨hne, hunit, hblank⟩ := hquoted u hu
    have hvisible : ∀ c ∈ u.toList, isBlank c = false := fun c hc =>
      Bool.not_eq_true _ ▸ List.any_eq_false.1 hblank c hc
    refine ⟨names_iff.2 ?_, isTrimmed_of_visible hvisible⟩
    rw [if_neg hne]
    exact ⟨_, hunit, congrArg some String.ofList_toList.symm⟩
  cases h with
  | inches => exact hself _ (by decide)
  | feet => exact hself _ (by decide)
  | word hletter hcs hknown =>
    rw [String.toList_ofList]
    exact ⟨names_upper hascii htrimmed hletter hcs hknown, isTrimmed_upper htrimmed⟩

set_option maxRecDepth 4000 in
theorem not_tokenChar_comma : isAlphabetic ',' = false ∧ isTokenChar ',' = false := by
  decide

/-- A token that gives a unit is something, and there is no comma in it. -/
theorem names_chars {token : List Char} {unit : String} (h : Names token (some unit)) :
    token ≠ [] ∧ ',' ∉ token := by
  have hquotes : (∀ quote ∈ [['"'], [Char.ofNat 39, Char.ofNat 39], ['″']],
      quote ≠ [] ∧ ',' ∉ quote) ∧
        ∀ quote ∈ [[Char.ofNat 39], ['′']], quote ≠ [] ∧ ',' ∉ quote := by
    decide
  obtain ⟨hletterless, hjoinless⟩ := not_tokenChar_comma
  cases h with
  | inches h => exact hquotes.1 token h
  | feet h => exact hquotes.2 token h
  | word hletter hcs =>
    refine ⟨List.cons_ne_nil _ _, fun hmem => ?_⟩
    rcases List.mem_cons.1 hmem with rfl | hmem
    · rw [hletterless] at hletter
      cases hletter
    · have htoken := (isTokenChar_iff ',').2 (hcs ',' hmem)
      rw [hjoinless] at htoken
      cases htoken

/-! ## Reading again -/

/-- A text is an entry exactly if a number can be taken off it, and what is left gives the unit. -/
theorem parse?_iff_takeNumber? (text : String) (e : Entry) : parse? text = some e ↔
    ∃ rest, takeNumber? (clean text) = some (.finite e.quantity, rest) ∧
      Names (trim rest) e.unit ∧ e.system = family e.unit := by
  constructor
  · intro h
    unfold parse? at h
    split at h
    · next quantity rest htake =>
      dsimp only at h
      split at h
      · next hnil =>
        obtain rfl := Option.some.inj h
        exact ⟨rest, htake, names_iff.2 ((if_pos hnil).mpr rfl), rfl⟩
      · next hne =>
        obtain ⟨u, hu, rfl⟩ := Option.map_eq_some_iff.1 h
        exact ⟨rest, htake, names_iff.2 ((if_neg hne).mpr ⟨u, hu, rfl⟩),
          classify_eq_registeredSystem _⟩
    · cases h
  · rintro ⟨rest, htake, hnames, hsystem⟩
    obtain ⟨quantity, unit, system⟩ := e
    dsimp only at htake hnames hsystem
    rw [names_iff] at hnames
    unfold parse?
    rw [htake]
    dsimp only
    split at hnames
    · next hnil =>
      subst hnames hsystem
      exact if_pos hnil
    · next hne =>
      obtain ⟨u, hu, rfl⟩ := hnames
      rw [if_neg hne, hu, Option.map_some, hsystem, classify_eq_registeredSystem]
      rfl

/-- What is read off a text are characters of it. -/
theorem mem_of_takeNumber? {text : String} {b : Binary64} {rest : List Char}
    (h : takeNumber? (clean text) = some (b, rest)) : ∀ c ∈ trim rest, c ∈ text.toList := by
  intro c hc
  obtain ⟨l, hbegins, -⟩ := takeNumber?_eq_some_iff.1 h
  obtain ⟨before, after, -, -, hrest⟩ := exists_eq_trim rest
  obtain ⟨before', after', -, -, htext⟩ := exists_eq_trim text.toList
  have hclean : c ∈ clean text := by
    rw [hbegins.split, hrest]
    exact List.mem_append_right _ (List.mem_append_right _ (List.mem_append_left _ hc))
  rw [htext]
  exact List.mem_append_right _ (List.mem_append_left _ (List.mem_of_mem_filter hclean))

theorem toList_printed (e : Entry) :
    e.printed.toList = (literalOf e.quantity).text ++ unitText e.unit := by
  rw [printed, String.toList_append, String.toList_ofList, Binary64.text, String.toList_ofList,
    text_literalOf]
  rfl

/-- The text has no commas in it, and no blanks around it. -/
theorem clean_printed {e : Entry}
    (hunit : ∀ u ∈ e.unit, Names u.toList (some u) ∧ IsTrimmed u.toList) :
    clean e.printed = (literalOf e.quantity).text ++ unitText e.unit := by
  have hliteral := (literalOf e.quantity).text_chars
  have hne := (literalOf e.quantity).text_ne_nil
  have htext := toList_printed e
  unfold clean
  rw [htext]
  cases hu : e.unit with
  | none =>
    have htrimmed := isTrimmed_of_visible fun c hc => (hliteral c hc).1
    rw [unitText, List.append_nil, htrimmed.trim_eq]
    exact List.filter_eq_self.2 fun c hc => bne_iff_ne.2 (hliteral c hc).2
  | some u =>
    obtain ⟨hnames, htrimmed⟩ := hunit u hu
    obtain ⟨hsome, hcomma⟩ := names_chars hnames
    have hends : IsTrimmed ((literalOf e.quantity).text ++ unitText (some u)) := by
      apply IsTrimmed.append hne
      · exact fun c hc => (hliteral c (List.mem_of_mem_head? hc)).1
      · exact List.cons_ne_nil _ _
      · intro c hc
        rw [unitText, List.getLast?_cons_of_ne_nil hsome] at hc
        exact htrimmed.last c hc
    rw [hends.trim_eq, List.filter_eq_self]
    intro c hc
    rw [bne_iff_ne]
    rcases List.mem_append.1 hc with hnumber | hrest
    · exact (hliteral c hnumber).2
    · rcases List.mem_cons.1 hrest with rfl | hmem
      · decide
      · rintro rfl
        exact hcomma hmem

/-- What was read from ASCII characters and is written out is read as the same entry: the quantity,
negative zero included, the unit, and the family. -/
theorem parse?_printed {text : String} {e : Entry} (hascii : ∀ c ∈ text.toList, c.toNat < 128)
    (h : parse? text = some e) : parse? e.printed = some e := by
  obtain ⟨rest, htake, hnames, hsystem⟩ := (parse?_iff_takeNumber? text e).1 h
  have hunit : ∀ u ∈ e.unit, Names u.toList (some u) ∧ IsTrimmed u.toList := by
    intro u hu
    rw [Option.mem_def.1 hu] at hnames
    exact names_unit (fun c hc => hascii c (mem_of_takeNumber? htake c hc)) (isTrimmed_trim rest)
      hnames
  refine (parse?_iff_takeNumber? e.printed e).2 ⟨unitText e.unit, ?_, ?_, hsystem⟩
  · rw [clean_printed hunit, takeNumber?_text _ (head?_unitText e.unit), double_literalOf]
  · cases hu : e.unit with
    | none => exact .nothing
    | some u =>
      obtain ⟨hself, htrimmed⟩ := hunit u hu
      rw [unitText, trim_cons_space, htrimmed.trim_eq]
      exact hself

theorem parse?_printed_negative_zero :
    (∀ c ∈ "-0.0 ft^2".toList, c.toNat < 128) ∧
      ∃ e, parse? "-0.0 ft^2" = some e ∧ e.printed = "-0 FT^2" ∧ parse? "-0 FT^2" = some e := by
  have hascii : ∀ c ∈ "-0.0 ft^2".toList, c.toNat < 128 := by simp
  obtain ⟨hsome, hprinted⟩ : (parse? "-0.0 ft^2").isSome = true ∧
      ∀ e ∈ parse? "-0.0 ft^2", e.printed = "-0 FT^2" := by
    decide +kernel
  obtain ⟨e, hparse⟩ := Option.isSome_iff_exists.1 hsome
  have hagain := parse?_printed hascii hparse
  rw [hprinted e hparse] at hagain
  exact ⟨hascii, e, hparse, hprinted e hparse, hagain⟩

end UnitLedger.Entry
