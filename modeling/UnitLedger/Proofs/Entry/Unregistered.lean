import UnitLedger.Proofs.Entry.Grammar
import UnitLedger.Proofs.Entry.Typed
set_option autoImplicit false

/-! # Words that the registry does not know

A word that the registry does not know is meant to have no digits and no spaces: a letter first, and
after it letters, `²`, `³`, `^`, `_` and `-` (`IsPlainWord`).  Every such word is accepted.  Beyond
them only words with numerals of other scripts are, because a digit that needs the registry is an
ASCII one and a number that may follow a letter is one of any script (`parse?_unregistered`): `x٣` is
accepted (`arabic_digit_accepted`), and `x3` is not.
-/

namespace UnitLedger.Entry

open Text Binary64
open Registry (builtin find?_of_isForeign)

/-- A letter, or one of the characters that may be among letters. -/
def IsPlainChar (c : Char) : Prop :=
  isAlphabetic c = true ∨ c ∈ ['²', '³', '^', '_', '-']

instance (c : Char) : Decidable (IsPlainChar c) :=
  inferInstanceAs (Decidable (_ ∨ _))

/-- A letter first, and letters, `²`, `³`, `^`, `_` and `-` throughout. -/
def IsPlainWord (token : List Char) : Prop :=
  token.head?.any isAlphabetic = true ∧ ∀ c ∈ token, IsPlainChar c

instance (token : List Char) : Decidable (IsPlainWord token) :=
  @instDecidableAnd _ _ inferInstance (List.decidableBAll IsPlainChar token)

/-- A number of any script that is no letter, no ASCII digit and neither of `²` and `³`. -/
def IsStrayNumeral (c : Char) : Prop :=
  isNumeric c = true ∧ isAlphabetic c = false ∧ c.isDigit = false ∧ c ∉ ['²', '³']

instance (c : Char) : Decidable (IsStrayNumeral c) :=
  inferInstanceAs (Decidable (_ ∧ _))

/-- The characters of a word that needs no registry: those of plain words and stray numerals. -/
theorem isTokenChar_unregistered_iff (c : Char) :
    (isTokenChar c = true ∧ ¬ (c.isDigit = true ∨ c = ' ')) ↔
      IsPlainChar c ∨ IsStrayNumeral c := by
  have hletter : isAlphabetic c = true → ¬ (c.isDigit = true ∨ c = ' ') := by
    rintro hc (hdigit | rfl)
    · rw [(ends_number (Or.inr hc)).1] at hdigit
      cases hdigit
    · exact absurd hc (by decide +kernel)
  have hjoiner : c ∈ ['²', '³', '^', '_', '-'] → ¬ (c.isDigit = true ∨ c = ' ') := by
    have hall : ['²', '³', '^', '_', '-'].all (fun d => ¬ (d.isDigit = true ∨ d = ' ')) = true := by
      decide
    exact fun hc => of_decide_eq_true (List.all_eq_true.1 hall c hc)
  have hsuper : c ∈ ['²', '³'] → c ∈ ['²', '³', '^', '_', '-'] :=
    List.mem_append_left ['^', '_', '-']
  have hspace : isNumeric c = true → c ≠ ' ' := by
    rintro hc rfl
    exact absurd hc (by decide +kernel)
  have hjoined : c ∈ ['²', '³', '^', '_', '-', ' '] ↔ c ∈ ['²', '³', '^', '_', '-'] ∨ c = ' ' := by
    rw [← List.mem_singleton (a := c), ← List.mem_append]
    rfl
  rw [isTokenChar_iff, isAlphanumeric, Bool.or_eq_true, hjoined, IsStrayNumeral,
    ← Bool.not_eq_true, ← Bool.not_eq_true]
  constructor
  · rintro ⟨hc, hfree⟩
    by_cases hplain : IsPlainChar c
    · exact Or.inl hplain
    · rw [IsPlainChar, not_or] at hplain
      have hnumeric : isNumeric c = true := by
        rcases hc with (hc | hc) | hc | hc
        · exact absurd hc hplain.1
        · exact hc
        · exact absurd hc hplain.2
        · exact absurd (Or.inr hc) hfree
      exact Or.inr ⟨hnumeric, hplain.1, fun hc => hfree (Or.inl hc),
        fun hc => hplain.2 (hsuper hc)⟩
  · rintro ((hc | hc) | ⟨hc, -, hdigit, -⟩)
    · exact ⟨Or.inl (Or.inl hc), hletter hc⟩
    · exact ⟨Or.inr (Or.inl hc), hjoiner hc⟩
    · exact ⟨Or.inl (Or.inr hc), not_or.2 ⟨hdigit, hspace hc⟩⟩

/-- No character of plain words is a stray numeral. -/
theorem IsPlainChar.not_isStrayNumeral {c : Char} (h : IsPlainChar c) : ¬ IsStrayNumeral c := by
  rintro ⟨hnumeric, hletter, -, hsuper⟩
  have hnone : ['^', '_', '-'].any isNumeric = false := by decide
  rcases h with hc | hc
  · rw [hletter] at hc
    cases hc
  · have hmem : c ∈ ['²', '³'] ++ ['^', '_', '-'] := hc
    have hjoiner := (List.mem_append.1 hmem).resolve_left hsuper
    exact List.any_eq_false.1 hnone c hjoiner hnumeric

/-- Without the registry a word is accepted exactly if it is plain but for stray numerals. -/
theorem isUnitWord_unregistered_iff {token : List Char}
    (hunknown : builtin.find? (String.ofList token) = none) :
    isUnitWord token = true ↔ token.head?.any isAlphabetic = true ∧
      ∀ c ∈ token, IsPlainChar c ∨ IsStrayNumeral c := by
  cases token with
  | nil => simp [isUnitWord, isWord]
  | cons c cs =>
    rw [isUnitWord_cons_iff, hunknown, List.head?_cons, Option.any_some]
    simp only [← isTokenChar_unregistered_iff, isTokenChar_iff]
    constructor
    · rintro ⟨hletter, hcs, hknown⟩
      refine ⟨hletter, fun d hd => ⟨?_, fun hbad => ?_⟩⟩
      · rcases List.mem_cons.1 hd with rfl | hmem
        · exact Or.inl (Bool.or_eq_true_iff.2 (Or.inl hletter))
        · exact hcs d hmem
      · obtain ⟨u, hu⟩ := hknown ⟨d, hd, hbad⟩
        cases hu
    · rintro ⟨hletter, hall⟩
      refine ⟨hletter, fun d hd => (hall d (List.mem_cons_of_mem c hd)).1, ?_⟩
      rintro ⟨d, hd, hbad⟩
      exact absurd hbad (hall d hd).2

theorem isSome_parse?_iff {text : String} {quantity : Finite} {rest : List Char}
    (hnumber : takeNumber? (clean text) = some (.finite quantity, rest)) (hne : trim rest ≠ [])
    (hquote : quoteUnit? (trim rest) = none) :
    (parse? text).isSome = true ↔ isUnitWord (trim rest) = true := by
  unfold parse? tokenUnit?
  rw [hnumber]
  dsimp only
  rw [if_neg hne, hquote, Option.isSome_map]
  dsimp only
  cases isUnitWord (trim rest) <;> rfl

/-- Behind a number, a token that the registry does not know is accepted exactly if a letter is
first and each of its characters is a letter, `²`, `³`, `^`, `_`, `-` or a stray numeral; so it has
no ASCII digit and no space.  The plain words are those of them without stray numerals. -/
theorem parse?_unregistered {text : String} {quantity : Finite} {rest : List Char}
    (hnumber : takeNumber? (clean text) = some (.finite quantity, rest)) (hne : trim rest ≠ [])
    (hquote : quoteUnit? (trim rest) = none)
    (hunknown : builtin.find? (String.ofList (trim rest)) = none) :
    ((parse? text).isSome = true ↔ (trim rest).head?.any isAlphabetic = true ∧
      ∀ c ∈ trim rest, IsPlainChar c ∨ IsStrayNumeral c) ∧
    ((parse? text).isSome = true → ∀ c ∈ trim rest, ¬ (c.isDigit = true ∨ c = ' ')) ∧
    (IsPlainWord (trim rest) ↔
      (parse? text).isSome = true ∧ ∀ c ∈ trim rest, ¬ IsStrayNumeral c) := by
  have haccepted := (isSome_parse?_iff hnumber hne hquote).trans
    (isUnitWord_unregistered_iff hunknown)
  refine ⟨haccepted, fun h c hc => ?_, ?_⟩
  · exact ((isTokenChar_unregistered_iff c).2 ((haccepted.1 h).2 c hc)).2
  · rw [haccepted, IsPlainWord]
    constructor
    · rintro ⟨hletter, hplain⟩
      exact ⟨⟨hletter, fun c hc => Or.inl (hplain c hc)⟩,
        fun c hc => (hplain c hc).not_isStrayNumeral⟩
    · rintro ⟨⟨hletter, hall⟩, hnone⟩
      exact ⟨hletter, fun c hc => (hall c hc).resolve_right (hnone c hc)⟩

/-- A plain word beyond ASCII. -/
theorem parse?_unregistered_tonne :
    takeNumber? (clean "7 tonne-métrique") =
        some (.finite ⟨false, 7881299347898368, -50, by decide⟩, " tonne-métrique".toList) ∧
      trim " tonne-métrique".toList ≠ [] ∧ quoteUnit? (trim " tonne-métrique".toList) = none ∧
      builtin.find? (String.ofList (trim " tonne-métrique".toList)) = none ∧
      IsPlainWord (trim " tonne-métrique".toList) ∧ (parse? "7 tonne-métrique").isSome = true := by
  obtain ⟨hnumber, hne, hquote, hforeign, hplain⟩ :
      takeNumber? (clean "7 tonne-métrique") =
          some (.finite ⟨false, 7881299347898368, -50, by decide⟩, " tonne-métrique".toList) ∧
        trim " tonne-métrique".toList ≠ [] ∧ quoteUnit? (trim " tonne-métrique".toList) = none ∧
        Symbol.IsForeign (trim " tonne-métrique".toList) ∧
        IsPlainWord (trim " tonne-métrique".toList) := by
    decide +kernel
  have hunknown := find?_of_isForeign (isTrimmed_trim _) hforeign
  obtain ⟨-, -, hword⟩ := parse?_unregistered hnumber hne hquote hunknown
  exact ⟨hnumber, hne, hquote, hunknown, hplain, (hword.1 hplain).1⟩

/-- The Arabic digit three is no letter, and a word with it is accepted all the same. -/
theorem arabic_digit_accepted :
    token? "5 x٣" = some "x٣".toList ∧ quoteUnit? "x٣".toList = none ∧
      builtin.find? (String.ofList "x٣".toList) = none ∧
      (∃ e, parse? "5 x٣" = some e ∧ e.unit = some "X٣") ∧
      ¬ ∀ c ∈ "x٣".toList, IsPlainChar c := by
  obtain ⟨htoken, hquote, htrimmed, hforeign, hsome, hunit, hmem, hdigit⟩ :
      token? "5 x٣" = some "x٣".toList ∧ quoteUnit? "x٣".toList = none ∧
        trim "x٣".toList = "x٣".toList ∧ Symbol.IsForeign "x٣".toList ∧
        (parse? "5 x٣").isSome = true ∧ (∀ e ∈ parse? "5 x٣", e.unit = some "X٣") ∧
        '٣' ∈ "x٣".toList ∧ ¬ IsPlainChar '٣' := by
    decide +kernel
  have hunknown := find?_of_isForeign (htrimmed ▸ isTrimmed_trim "x٣".toList) hforeign
  obtain ⟨e, hparse⟩ := Option.isSome_iff_exists.1 hsome
  exact ⟨htoken, hquote, hunknown, ⟨e, hparse, hunit e hparse⟩,
    fun hall => hdigit (hall _ hmem)⟩

end UnitLedger.Entry
