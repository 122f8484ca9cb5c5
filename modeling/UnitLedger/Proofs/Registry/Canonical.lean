import UnitLedger.Proofs.Registry.Spelling
set_option autoImplicit false

/-! # Keys looked up again

A key can itself be looked up as a symbol.  Nothing in it is folded any further
(`foldChar_of_mem_foldChar`), so the key of a key is the key without the blanks at its ends
(`key_normalize`).  Only carets can bring a blank there: a symbol is trimmed before its carets are
dropped, and a blank behind a caret at one of its ends stays (`isTrimmed_key_iff`).  All other
symbols have a key that is its own key and that names what they name; a symbol that hides a blank
names nothing, though the key of its key may name a unit (`find?_normalize`, `tab_behind_caret`).
-/

namespace UnitLedger

namespace Symbol

open Text

/-! ## Folding what is folded -/

set_option maxRecDepth 2000 in
/-- No run of the mapping to lower case reaches a sign. -/
theorem lowerRuns_signs : ∀ r ∈ lowerRuns, r.Avoids (signs.map fun c => (c.toNat, c.toNat)) := by
  decide

theorem not_mem_signs_of_lowerCase {c d : Char} (h : d ∈ lowerCase.char c) (hc : c ∉ signs) :
    d ∉ signs := by
  rcases CaseMap.mem_char_cases h with ⟨e, he, n, hn, rfl⟩ | ⟨r, hr, hholds, rfl⟩ | ⟨rfl, -⟩
  · have hclosed : ∀ e ∈ lowerCase.expansions, ∀ n ∈ e.2, Char.ofNat n ∉ signs := by decide
    exact hclosed e he n hn
  · intro hsign
    have hclear := (lowerRuns_signs r hr).inRanges_apply hholds
    rcases toNat_ofNat_eq_or (r.apply c.toNat) with hvalid | hzero
    · rw [← hvalid, inRanges, List.any_eq_false] at hclear
      exact hclear _ (List.mem_map_of_mem hsign) (by simp)
    · have hclosed : 0 ∉ signs.map Char.toNat := by decide
      exact hclosed (hzero ▸ List.mem_map_of_mem hsign)
  · exact hc

/-- A character of a key contributes itself. -/
theorem foldChar_of_mem_foldChar {c d : Char} (h : d ∈ foldChar c) : foldChar d = [d] := by
  by_cases hsign : c ∈ signs
  · have hclosed : (signs.flatMap foldChar).all (fun d => foldChar d == [d]) = true := by decide
    exact beq_iff_eq.1 (List.all_eq_true.1 hclosed d (List.mem_flatMap.2 ⟨c, hsign, h⟩))
  · rw [foldChar_of_not_mem_signs hsign] at h
    rw [foldChar_of_not_mem_signs (not_mem_signs_of_lowerCase h hsign), lowerCase_char_of_mem h]

/-- The key of a key is the key without the blanks at its ends. -/
theorem key_normalize (symbol : String) : key (normalize symbol) = trim (key symbol) := by
  have hself : ∀ d ∈ trim (key symbol), foldChar d = [d] := by
    intro d hd
    obtain ⟨c, -, hc⟩ := List.mem_flatMap.1 (mem_of_mem_trim hd)
    exact foldChar_of_mem_foldChar hc
  rw [key, toList_normalize, fold, List.flatMap_congr hself, List.flatMap_singleton']

/-! ## Blanks in a key -/

/-- A blank that stays in a key.  Of the blanks only the space becomes something else. -/
def isKeptBlank (c : Char) : Bool := isBlank c && c != ' '

theorem isBlank_of_mem_foldChar {c d : Char} (h : d ∈ foldChar c) : isBlank d = isKeptBlank c := by
  by_cases hsign : c ∈ signs
  · have hclosed : signs.all (fun c => (foldChar c).all (isBlank · == isKeptBlank c)) = true := by
      decide
    exact beq_iff_eq.1 (List.all_eq_true.1 (List.all_eq_true.1 hclosed c hsign) d h)
  · have hspace : c ≠ ' ' := by
      rintro rfl
      exact hsign (by decide)
    rw [foldChar_of_not_mem_signs hsign] at h
    rw [isKeptBlank, bne_iff_ne.2 hspace, Bool.and_true]
    cases hblank : isBlank c with
    | true =>
      rw [lowerCase_char_blank hblank, List.mem_singleton] at h
      rw [h, hblank]
    | false => exact (keepsVisible_lowerCase c hblank).2 d h

theorem foldChar_ne_nil {c : Char} (hcaret : c ≠ '^') : foldChar c ≠ [] := by
  by_cases hsign : c ∈ signs
  · have hclosed : signs.all (fun c => c == '^' || foldChar c != []) = true := by decide
    have hfound := List.all_eq_true.1 hclosed c hsign
    rw [Bool.or_eq_true, beq_iff_eq, bne_iff_ne] at hfound
    exact hfound.resolve_left hcaret
  · rw [foldChar_of_not_mem_signs hsign]
    cases hblank : isBlank c with
    | true =>
      rw [lowerCase_char_blank hblank]
      exact List.cons_ne_nil _ _
    | false => exact (keepsVisible_lowerCase c hblank).1

/-- Carets leave nothing in a key. -/
theorem fold_filter_caret (cs : List Char) : fold (cs.filter (· != '^')) = fold cs := by
  induction cs with
  | nil => rfl
  | cons c cs ih =>
    by_cases hcaret : c = '^'
    · rw [List.filter_cons_of_neg (by simp [hcaret]), ih, hcaret]
      rfl
    · rw [List.filter_cons_of_pos (by simp [hcaret]), fold_cons, fold_cons, ih]

/-- Carets aside, the text starts or ends with a blank that stays in a key. -/
def HidesBlank (cs : List Char) : Prop :=
  (cs.filter (· != '^')).head?.any isKeptBlank = true ∨
    (cs.filter (· != '^')).getLast?.any isKeptBlank = true

instance (cs : List Char) : Decidable (HidesBlank cs) := inferInstanceAs (Decidable (_ ∨ _))

/-- A key has blanks at its ends when the trimmed symbol has them behind carets. -/
theorem isTrimmed_key_iff (symbol : String) :
    IsTrimmed (key symbol) ↔ ¬ HidesBlank (trim symbol.toList) := by
  rw [key, ← fold_filter_caret, fold, isTrimmed_flatMap_iff
    (fun c hc => foldChar_ne_nil (bne_iff_ne.1 (List.mem_filter.1 hc).2))
    (fun c _ d hd => isBlank_of_mem_foldChar hd), HidesBlank, not_or, Bool.not_eq_true,
    Bool.not_eq_true]

theorem isBlank_of_isKeyChar {c : Char} (h : isKeyChar c = true) : isBlank c = false := by
  rw [← Bool.not_eq_true]
  intro hblank
  simp only [isKeyChar, isSmallLetter, isBlank, inRanges, blankRanges, List.any_cons, List.any_nil,
    Bool.or_false, Bool.or_eq_true, Bool.and_eq_true, decide_eq_true_iff] at h hblank
  omega

end Symbol

namespace Registry

open Text UnitLedger.Symbol

/-- A symbol that hides a blank names nothing. -/
theorem find?_of_hidesBlank {symbol : String} (h : HidesBlank (trim symbol.toList)) :
    builtin.find? symbol = none := by
  cases hfind : builtin.find? symbol with
  | none => rfl
  | some u =>
    have hplain := (isWordKey_of_find? hfind).isKeyChar
    have htrimmed := isTrimmed_of_visible fun c hc => isBlank_of_isKeyChar (hplain c hc)
    exact absurd h ((isTrimmed_key_iff symbol).1 htrimmed)

/-- A key is its own key exactly if the symbol hides no blank behind carets at its ends, and then it
names what the symbol names.  Else the key of the key is the key without these blanks, which is its
own key, and the symbol itself names nothing. -/
theorem find?_normalize (symbol : String) :
    Symbol.normalize (Symbol.normalize symbol) = String.ofList (trim (key symbol)) ∧
      (Symbol.normalize (Symbol.normalize symbol) = Symbol.normalize symbol ↔
        ¬ HidesBlank (trim symbol.toList)) ∧
      Symbol.normalize (Symbol.normalize (Symbol.normalize symbol)) =
        Symbol.normalize (Symbol.normalize symbol) ∧
      builtin.find? symbol =
        if HidesBlank (trim symbol.toList) then none
        else builtin.find? (Symbol.normalize symbol) := by
  have htwice : Symbol.normalize (Symbol.normalize symbol) = String.ofList (trim (key symbol)) :=
    congrArg String.ofList (key_normalize symbol)
  refine ⟨htwice, ?_, ?_, ?_⟩
  · rw [htwice, Symbol.normalize, String.ofList_inj, trim_eq_self_iff, isTrimmed_key_iff]
  · rw [Symbol.normalize, key_normalize, key_normalize, (isTrimmed_trim _).trim_eq, htwice]
  · split
    · next hhides => exact find?_of_hidesBlank hhides
    · next hnone =>
      have htrimmed := (isTrimmed_key_iff symbol).2 hnone
      rw [find?, find?, key_normalize, htrimmed.trim_eq]

/-- With a tab behind a caret the key of the symbol starts with the tab, and the key of that key
does not: it names the metre, which the symbol does not name. -/
theorem tab_behind_caret :
    Symbol.normalize "^\tm" = "\tm" ∧ Symbol.normalize "\tm" = "m" ∧ builtin.find? "^\tm" = none ∧
      (builtin.find? "\tm").map (·.symbol) = some "m" ∧
      (¬ ∀ symbol, Symbol.normalize (Symbol.normalize symbol) = Symbol.normalize symbol) ∧
      ¬ ∀ symbol, builtin.find? (Symbol.normalize symbol) = builtin.find? symbol := by
  obtain ⟨hkey, hagain, hnone, hfound⟩ :
      Symbol.normalize "^\tm" = "\tm" ∧ Symbol.normalize "\tm" = "m" ∧ builtin.find? "^\tm" = none ∧
        (builtin.find? "\tm").map (·.symbol) = some "m" := by
    decide +kernel
  refine ⟨hkey, hagain, hnone, hfound, fun hall => ?_, fun hall => ?_⟩
  · have := hall "^\tm"
    rw [hkey, hagain] at this
    exact absurd this (by decide)
  · have := hall "^\tm"
    rw [hkey, hnone] at this
    rw [this] at hfound
    cases hfound

end Registry

end UnitLedger
