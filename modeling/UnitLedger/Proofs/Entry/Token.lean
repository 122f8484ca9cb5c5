import UnitLedger.Entry
import UnitLedger.Proofs.Registry.Spelling
set_option autoImplicit false

/-! # Unit tokens

A token is accepted as it was typed, but looked up in upper case.  Upper case names what the token
names spelled out (`unit_of_token`), so an unknown token stays unknown unless it has letters beyond
ASCII that are spelled out as ASCII ones: `ſt` is unknown and comes out as the stone
(`long_s_becomes_stone`).  A token that the registry knows is accepted and names its unit in upper
case as well (`tokenUnit?_of_find?`).
-/

namespace UnitLedger.Entry

open Text UnitLedger.Symbol Registry

/-! ## Families -/

/-- The families that are told without the registry are those it would tell. -/
theorem classify_eq_registeredSystem (unit : String) : classify unit = registeredSystem unit := by
  have hcommon : ∀ unit ∈ ["KG", "G", "MG"] ++ ["INCH", "FT"],
      commonSystem? unit = some (registeredSystem unit) := by
    decide +kernel
  unfold classify
  by_cases hmem : unit ∈ ["KG", "G", "MG"] ++ ["INCH", "FT"]
  · rw [hcommon unit hmem]
    rfl
  · rw [List.mem_append, not_or] at hmem
    rw [commonSystem?, if_neg hmem.1, if_neg hmem.2]
    rfl

theorem classify_of_find? {unit : String} {u : MeasureUnit} (h : builtin.find? unit = some u) :
    classify unit = if u.dimension.isCount then .each else .ofSystem u.system := by
  rw [classify_eq_registeredSystem, registeredSystem, h]

theorem classify_of_find?_none {unit : String} (h : builtin.find? unit = none) :
    classify unit = .each := by
  rw [classify_eq_registeredSystem, registeredSystem, h]

/-! ## Registered tokens -/

set_option maxRecDepth 4000 in
theorem plain_ascii : ∀ n < 128, (foldAscii (Char.ofNat n)).all isKeyChar = true →
    isTokenChar (Char.ofNat n) = true ∧ Char.ofNat n ≠ ',' := by
  decide

set_option maxRecDepth 4000 in
theorem plain_folded : ∀ n ∈ foldedCodes,
    isTokenChar (Char.ofNat n) = true ∧ Char.ofNat n ≠ ',' := by
  decide

/-- A character that folds to a plain key can stand in a token. -/
theorem isTokenChar_of_plain {c : Char} (h : ¬ IsForeign [c]) :
    isTokenChar c = true ∧ c ≠ ',' := by
  by_cases hlow : c.toNat < 128
  · rw [isForeign_ascii hlow, Bool.not_eq_false] at h
    have hplain := plain_ascii _ hlow
    rw [Char.ofNat_toNat] at hplain
    exact hplain h
  · by_cases hfolded : c.toNat ∈ foldedCodes
    · have hplain := plain_folded _ hfolded
      rwa [Char.ofNat_toNat] at hplain
    · exact absurd (isForeign_of_high (Nat.not_lt.1 hlow) hfolded) h

/-- Where a character contributes a small letter to a key, or nothing, it is a letter. -/
theorem letter_ascii : ∀ n < 128, Char.ofNat n = '^' ∨
    ((foldAscii (Char.ofNat n)).head?.any isSmallLetter = false ∧ foldAscii (Char.ofNat n) ≠ []) ∨
      isAlphabetic (Char.ofNat n) = true := by
  decide

set_option maxRecDepth 4000 in
theorem letter_folded : ∀ n ∈ foldedCodes,
    ((foldChar (Char.ofNat n)).head?.any isSmallLetter = false ∧ foldChar (Char.ofNat n) ≠ []) ∨
      isAlphabetic (Char.ofNat n) = true := by
  decide

/-- A word that is found starts with a letter, unless it starts with a caret. -/
theorem isAlphabetic_of_isWordKey {c : Char} {cs : List Char} (h : IsWordKey (fold (c :: cs)))
    (hcaret : c ≠ '^') : isAlphabetic c = true := by
  have hself : Char.ofNat c.toNat = c := Char.ofNat_toNat c
  have hplain : ¬ IsForeign [c] := by
    rintro ⟨d, hd, hkey⟩
    have hmem : d ∈ fold (c :: cs) := by
      rw [fold_cons]
      rw [fold_cons, fold_nil, List.append_nil] at hd
      exact List.mem_append_left _ hd
    rw [h.isKeyChar d hmem] at hkey
    cases hkey
  have hfirst : ¬ ((foldChar c).head?.any isSmallLetter = false ∧ foldChar c ≠ []) := by
    rintro ⟨hnone, hne⟩
    obtain ⟨d, ds, hds⟩ := List.exists_cons_of_ne_nil hne
    rw [fold_cons, hds] at h
    rw [hds, List.head?_cons, Option.any_some, h.1] at hnone
    cases hnone
  by_cases hlow : c.toNat < 128
  · have hcases := letter_ascii _ hlow
    rw [hself, ← foldChar_ascii hlow] at hcases
    exact (hcases.resolve_left hcaret).resolve_left hfirst
  · by_cases hfolded : c.toNat ∈ foldedCodes
    · have hcases := letter_folded _ hfolded
      rw [hself] at hcases
      exact hcases.resolve_left hfirst
    · exact absurd (isForeign_of_high (Nat.not_lt.1 hlow) hfolded) hplain

/-- A quotation mark is no word. -/
theorem quoteUnit?_of_plain {token : List Char} (h : ¬ IsForeign token) :
    quoteUnit? token = none := by
  have hquotes : ∀ quote ∈ [['"'], [Char.ofNat 39, Char.ofNat 39], ['″'], [Char.ofNat 39], ['′']],
      IsForeign quote := by
    decide
  unfold quoteUnit?
  rw [if_neg, if_neg]
  · rintro (rfl | rfl) <;> exact h (hquotes _ (by decide))
  · rintro (rfl | rfl | rfl) <;> exact h (hquotes _ (by decide))

/-- A symbol that the registry knows is a token, unless it starts with a caret. -/
theorem tokenUnit?_of_find? {symbol : String} {u : MeasureUnit}
    (hu : builtin.find? symbol = some u) (hcaret : (trim symbol.toList).head? ≠ some '^') :
    tokenUnit? (trim symbol.toList) = some (upperCase.text (trim symbol.toList)) := by
  have hplain := not_isForeign_of_find? hu
  have hword := isWordKey_of_find? hu
  have hfind := (find?_ofList_trim builtin symbol).trans hu
  unfold Symbol.key at hword
  unfold tokenUnit?
  rw [quoteUnit?_of_plain hplain]
  dsimp only
  rw [if_pos]
  unfold isUnitWord
  rw [hfind, Option.isSome_some, Bool.or_true, Bool.and_true]
  cases htoken : trim symbol.toList with
  | nil =>
    rw [htoken] at hword
    exact absurd hword id
  | cons c cs =>
    rw [htoken] at hword hcaret hplain
    have hletter := isAlphabetic_of_isWordKey hword fun hc => hcaret (congrArg some hc)
    show (isAlphabetic c && cs.all isTokenChar) = true
    rw [hletter, Bool.true_and, List.all_eq_true]
    intro d hd
    exact (isTokenChar_of_plain
      fun hforeign => hplain (isForeign_of_mem hforeign (List.mem_cons_of_mem c hd))).1

/-! ## Tokens in upper case -/

/-- What stands behind the number of a text, without blanks around it. -/
def token? (text : String) : Option (List Char) :=
  (takeNumber? (clean text)).map fun (_, rest) => trim rest

/-- A word is looked up spelled out: the unit of an entry is the token in upper case, which names
what the token names with its ten letters beyond ASCII replaced.  If it names nothing, the entry is
of no family and is refused in every field. -/
theorem unit_of_token {text : String} {token : List Char} {e : Entry}
    (htoken : token? text = some token) (hne : token ≠ []) (hquote : quoteUnit? token = none)
    (hparse : parse? text = some e) :
    e.unit = some (String.ofList (upperCase.text token)) ∧
      builtin.find? (String.ofList (upperCase.text token)) =
        builtin.find? (String.ofList (token.flatMap spellOut)) ∧
      (builtin.find? (String.ofList (token.flatMap spellOut)) = none →
        e.system = .each ∧ ∀ (d : Dimension) (defaultUnit : String),
          e.store d defaultUnit =
            .error (.unknownUnit d.name (String.ofList (upperCase.text token)))) := by
  obtain ⟨⟨number, rest⟩, htake, rfl⟩ := Option.map_eq_some_iff.1 htoken
  have hupper := find?_upper (isTrimmed_trim rest)
  have hentry : e.unit = some (String.ofList (upperCase.text (trim rest))) ∧
      e.system = classify (String.ofList (upperCase.text (trim rest))) := by
    unfold parse? at hparse
    rw [htake] at hparse
    cases number with
    | finite quantity =>
      dsimp only at hparse hne hquote
      rw [if_neg hne] at hparse
      unfold tokenUnit? at hparse
      rw [hquote] at hparse
      dsimp only at hparse
      split at hparse
      · obtain rfl := Option.some.inj hparse
        exact ⟨rfl, rfl⟩
      · cases hparse
    | infinite negative => cases hparse
    | nan => cases hparse
  refine ⟨hentry.1, hupper, fun hnone => ?_⟩
  rw [← hupper] at hnone
  refine ⟨hentry.2.trans (classify_of_find?_none hnone), fun d defaultUnit => ?_⟩
  unfold store StoredQuantity.ofValue Registry.lookup
  rw [hentry.1, Option.getD_some, hnone]
  rfl

/-- A parsec is not registered. -/
theorem unit_of_token_parsec :
    token? "3 parsec" = some "parsec".toList ∧ "parsec".toList ≠ [] ∧
      quoteUnit? "parsec".toList = none ∧
      ∃ e, parse? "3 parsec" = some e ∧ e.unit = some "PARSEC" ∧ builtin.find? "PARSEC" = none ∧
        e.system = .each ∧ ∀ (d : Dimension) (defaultUnit : String),
          e.store d defaultUnit = .error (.unknownUnit d.name "PARSEC") := by
  obtain ⟨htoken, hquote, hnone, hupper, hsome⟩ :
      token? "3 parsec" = some "parsec".toList ∧ quoteUnit? "parsec".toList = none ∧
        builtin.find? (String.ofList ("parsec".toList.flatMap spellOut)) = none ∧
        String.ofList (upperCase.text "parsec".toList) = "PARSEC" ∧
        (parse? "3 parsec").isSome = true := by
    decide +kernel
  obtain ⟨e, hparse⟩ := Option.isSome_iff_exists.1 hsome
  obtain ⟨hunit, hfind, hrest⟩ := unit_of_token htoken (by decide) hquote hparse
  rw [hupper] at hunit hfind hrest
  exact ⟨htoken, by decide, hquote, e, hparse, hunit, hfind.trans hnone, hrest hnone⟩

/-- The token `ſt` is not registered, but its upper case is the stone. -/
theorem long_s_becomes_stone :
    token? "5 ſt" = some "ſt".toList ∧ quoteUnit? "ſt".toList = none ∧
      builtin.find? "ſt" = none ∧
      ∃ e, parse? "5 ſt" = some e ∧ e.unit = some "ST" ∧ (builtin.find? "ST").isSome ∧
        e.system = .imperial ∧ e.store .weight "kg" = .ok ⟨31751466, .weight⟩ := by
  obtain ⟨htoken, hquote, hnone, hsome, hentry⟩ :
      token? "5 ſt" = some "ſt".toList ∧ quoteUnit? "ſt".toList = none ∧
        builtin.find? "ſt" = none ∧ (parse? "5 ſt").isSome = true ∧
        ∀ e ∈ parse? "5 ſt", e.unit = some "ST" ∧ (builtin.find? "ST").isSome ∧
          e.system = .imperial ∧ e.store .weight "kg" = .ok ⟨31751466, .weight⟩ := by
    decide +kernel
  obtain ⟨e, hparse⟩ := Option.isSome_iff_exists.1 hsome
  exact ⟨htoken, hquote, hnone, e, hparse, hentry e hparse⟩

end UnitLedger.Entry
