import UnitLedger.Symbol
import UnitLedger.Proofs.Text.Case
set_option autoImplicit false

/-! # Keys in upper case

Upper case followed by the folding of a key is the folding alone, but for ten letters that are not
ASCII and have ASCII letters as upper case (`asciiSpellings`): those come out as the letters they
are spelled out with.  Every other character beyond ASCII leaves a trace in the key that no key of
plain letters, digits and underscores has, in upper case as well (`fold_upper_cases`).
-/

namespace UnitLedger.Symbol

open Text

/-! ## Signs -/

/-- The characters that a key does not simply take in lower case. -/
def signs : List Char := ['²', '³', '^', '-', ' ']

theorem foldChar_of_not_mem_signs {c : Char} (h : c ∉ signs) : foldChar c = lowerCase.char c := by
  simp only [signs, List.mem_cons, List.not_mem_nil, or_false, not_or] at h
  obtain ⟨hsquare, hcube, hcaret, hhyphen, hspace⟩ := h
  rw [foldChar, if_neg hsquare, if_neg hcube, if_neg hcaret, if_neg (not_or.2 ⟨hhyphen, hspace⟩)]

/-! ## Plain keys -/

def isSmallLetter (c : Char) : Bool := inRanges [(0x61, 0x7A)] c.toNat

/-- A small ASCII letter, a digit or an underscore. -/
def isKeyChar (c : Char) : Bool :=
  isSmallLetter c || inRanges [(0x30, 0x39), (0x5F, 0x5F)] c.toNat

theorem isKeyChar_of_isSmallLetter {c : Char} (h : isSmallLetter c = true) :
    isKeyChar c = true := by
  rw [isKeyChar, h, Bool.true_or]

/-- The key of the text has a character that is none of a plain key. -/
def IsForeign (cs : List Char) : Prop := ∃ d ∈ fold cs, isKeyChar d = false

theorem isForeign_iff (cs : List Char) :
    ((fold cs).all isKeyChar = false) ↔ IsForeign cs := by
  rw [List.all_eq_false]
  unfold IsForeign
  simp only [Bool.not_eq_true]

instance (cs : List Char) : Decidable (IsForeign cs) := decidable_of_iff _ (isForeign_iff cs)

theorem IsForeign.append_left {cs : List Char} (h : IsForeign cs) (ds : List Char) :
    IsForeign (cs ++ ds) := by
  obtain ⟨d, hd, hkey⟩ := h
  exact ⟨d, by rw [fold_append]; exact List.mem_append_left _ hd, hkey⟩

theorem IsForeign.append_right {ds : List Char} (h : IsForeign ds) (cs : List Char) :
    IsForeign (cs ++ ds) := by
  obtain ⟨d, hd, hkey⟩ := h
  exact ⟨d, by rw [fold_append]; exact List.mem_append_right _ hd, hkey⟩

theorem isForeign_of_mem {c : Char} {cs : List Char} (h : IsForeign [c]) (hc : c ∈ cs) :
    IsForeign cs := by
  obtain ⟨front, back, rfl⟩ := List.append_of_mem hc
  exact (h.append_left back).append_right front

/-! ## ASCII characters -/

/-- What an ASCII character contributes to a key. -/
def foldAscii (c : Char) : List Char :=
  if c = '^' then [] else if c = '-' ∨ c = ' ' then ['_'] else [c.toLower]

theorem foldChar_ascii {c : Char} (h : c.toNat < 128) : foldChar c = foldAscii c := by
  have hraised : c ≠ '²' ∧ c ≠ '³' := by
    constructor
    · rintro rfl
      exact absurd h (by decide)
    · rintro rfl
      exact absurd h (by decide)
  unfold foldChar foldAscii
  rw [if_neg hraised.1, if_neg hraised.2, lowerCase_char_ascii h]

theorem isForeign_ascii {c : Char} (h : c.toNat < 128) :
    IsForeign [c] ↔ (foldAscii c).all isKeyChar = false := by
  rw [← isForeign_iff, fold_cons, fold_nil, List.append_nil, foldChar_ascii h]

/-! ## Characters beyond ASCII -/

/-- The characters beyond ASCII that a key folds to plain ones: raised digits and the Kelvin
sign. -/
def foldedCodes : List Nat := [0xB2, 0xB3, 0x212A]

theorem isKeyChar_ofNat {n : Nat} (h : 128 ≤ n) : isKeyChar (Char.ofNat n) = false := by
  unfold isKeyChar isSmallLetter
  rcases toNat_ofNat_eq_or n with hn | hn <;> rw [hn]
  · simp only [inRanges, List.any_cons, List.any_nil, Bool.or_false, Bool.or_eq_false_iff,
      Bool.and_eq_false_iff, decide_eq_false_iff_not]
    omega
  · decide

set_option maxRecDepth 2000 in
/-- Only capital ASCII letters and the Kelvin sign have lower case in ASCII. -/
theorem lowerRuns_high : ∀ r ∈ lowerRuns,
    r.last < 128 ∨ 128 ≤ r.first + r.shift ∨ (r.first = 0x212A ∧ r.last = 0x212A) := by
  decide

/-- A character beyond ASCII does not fold to a plain key. -/
theorem isForeign_of_high {c : Char} (h : 128 ≤ c.toNat) (hfolded : c.toNat ∉ foldedCodes) :
    IsForeign [c] := by
  have hfold : foldChar c = lowerCase.char c := by
    apply foldChar_of_not_mem_signs
    intro hsign
    have hcode : ∀ n ∈ signs.map Char.toNat, n < 128 ∨ n ∈ foldedCodes := by decide
    rcases hcode _ (List.mem_map_of_mem hsign) with hlow | hmem
    · omega
    · exact hfolded hmem
  unfold IsForeign
  rw [fold_cons, fold_nil, List.append_nil, hfold, CaseMap.char]
  rcases lowerCase.apply_cases c.toNat with hexpansion | ⟨r, hr, hholds, heq⟩ | heq
  · -- the only expansion has a dot above in it
    rw [(Prod.mk.inj (List.mem_singleton.1 hexpansion)).2]
    exact ⟨Char.ofNat 0x307, List.mem_cons_of_mem _ List.mem_cons_self, isKeyChar_ofNat (by decide)⟩
  · obtain ⟨hfirst, hlast⟩ := CaseRun.holds_bounds hholds
    rw [heq]
    refine ⟨_, List.mem_singleton_self _, isKeyChar_ofNat ?_⟩
    rcases lowerRuns_high r hr with hlow | hhigh | ⟨hkelvin, hkelvin'⟩
    · omega
    · unfold CaseRun.apply
      omega
    · have hcode : c.toNat = 0x212A := by omega
      exact absurd (hcode ▸ (by decide : 0x212A ∈ foldedCodes)) hfolded
  · rw [heq]
    exact ⟨_, List.mem_singleton_self _, isKeyChar_ofNat h⟩

/-! ## Upper case -/

/-- The letters beyond ASCII whose upper case is ASCII, and that upper case in small letters. -/
def asciiSpellings : List (Char × List Char) :=
  [('ß', "ss".toList), ('ı', "i".toList), ('ſ', "s".toList), ('ﬀ', "ff".toList),
    ('ﬁ', "fi".toList), ('ﬂ', "fl".toList), ('ﬃ', "ffi".toList), ('ﬄ', "ffl".toList),
    ('ﬅ', "st".toList), ('ﬆ', "st".toList)]

/-- The letter spelled out in ASCII, if it is one of these. -/
def spellOut (c : Char) : List Char := (asciiSpellings.lookup c).getD [c]

theorem foldAscii_toUpper : ∀ n < 128,
    (Char.ofNat n).toUpper.toNat < 128 ∧
      foldAscii (Char.ofNat n).toUpper = foldAscii (Char.ofNat n) := by
  decide

theorem asciiSpellings_high : ∀ e ∈ asciiSpellings, 128 ≤ e.1.toNat := by
  decide

theorem spellOut_ascii {c : Char} (h : c.toNat < 128) : spellOut c = [c] := by
  unfold spellOut
  cases hspelled : asciiSpellings.lookup c with
  | none => rfl
  | some spelling => exact absurd (asciiSpellings_high _ (mem_of_lookup hspelled)) (Nat.not_le.2 h)

theorem fold_upper_ascii {c : Char} (h : c.toNat < 128) :
    fold (upperCase.char c) = fold (spellOut c) := by
  obtain ⟨hlow, hfold⟩ := foldAscii_toUpper _ h
  rw [Char.ofNat_toNat] at hlow hfold
  rw [upperCase_char_ascii h, spellOut_ascii h, fold_cons, fold_cons, foldChar_ascii hlow,
    foldChar_ascii h, hfold]

theorem fold_upper_folded :
    ∀ n ∈ foldedCodes, fold (upperCase.char (Char.ofNat n)) = fold (spellOut (Char.ofNat n)) := by
  decide

theorem fold_upper_spelled :
    ∀ e ∈ asciiSpellings, fold (upperCase.char e.1) = fold (spellOut e.1) ∧ IsForeign [e.1] := by
  decide

/-- An expansion to ASCII is that of a letter that can be spelled out. -/
theorem upperExpansions_high : ∀ e ∈ upperExpansions,
    (asciiSpellings.lookup (Char.ofNat e.1)).isSome ∨
      ∃ n ∈ e.2, 128 ≤ n ∧ n ∉ foldedCodes := by
  decide

set_option maxRecDepth 2000 in
/-- A run beyond ASCII that reaches into it is that of a letter that can be spelled out. -/
theorem upperRuns_high : ∀ r ∈ upperRuns,
    r.last < 128 ∨
      (r.first = r.last ∧ (asciiSpellings.lookup (Char.ofNat r.first)).isSome) ∨
      (128 ≤ r.first + r.shift ∧
        ∀ n ∈ foldedCodes, (r.last : Int) + r.shift < n ∨ (n : Int) < r.first + r.shift) := by
  decide

/-- Where a character beyond ASCII does not fold to a plain key, neither does its upper case, unless
it can be spelled out. -/
theorem isForeign_upper {c : Char} (h : 128 ≤ c.toNat) (hfolded : c.toNat ∉ foldedCodes)
    (hspelled : asciiSpellings.lookup c = none) : IsForeign (upperCase.char c) := by
  have hhigh : ∀ n, 128 ≤ n → n ∉ foldedCodes → IsForeign [Char.ofNat n] := by
    intro n hn hnot
    by_cases hvalid : (Char.ofNat n).toNat = n
    · apply isForeign_of_high <;> rwa [hvalid]
    · have hzero := (toNat_ofNat_eq_or n).resolve_left hvalid
      rw [← Char.ofNat_toNat (Char.ofNat n), hzero]
      decide
  have hself : Char.ofNat c.toNat = c := Char.ofNat_toNat c
  unfold CaseMap.char
  rcases upperCase.apply_cases c.toNat with hexpansion | ⟨r, hr, hholds, heq⟩ | heq
  · rcases upperExpansions_high _ hexpansion with hsome | ⟨n, hn, hlarge, hnot⟩
    · rw [hself, hspelled] at hsome
      cases hsome
    · exact isForeign_of_mem (hhigh n hlarge hnot) (List.mem_map_of_mem hn)
  · obtain ⟨hfirst, hlast⟩ := CaseRun.holds_bounds hholds
    rw [heq, List.map_singleton]
    rcases upperRuns_high r hr with hlow | ⟨hsingle, hsome⟩ | ⟨hlarge, hapart⟩
    · omega
    · have hcode : r.first = c.toNat := by omega
      rw [hcode, hself, hspelled] at hsome
      cases hsome
    · unfold CaseRun.apply
      apply hhigh
      · omega
      · intro hmem
        have := hapart _ hmem
        omega
  · rw [heq, List.map_singleton]
    exact hhigh _ h hfolded

/-- The key of the upper case of a character is that of the character spelled out, or the two are
not plain. -/
theorem fold_upper_cases (c : Char) :
    fold (upperCase.char c) = fold (spellOut c) ∨
      IsForeign (upperCase.char c) ∧ IsForeign (spellOut c) := by
  have hself : Char.ofNat c.toNat = c := Char.ofNat_toNat c
  by_cases hlow : c.toNat < 128
  · exact Or.inl (fold_upper_ascii hlow)
  by_cases hfolded : c.toNat ∈ foldedCodes
  · left
    rw [← hself]
    exact fold_upper_folded _ hfolded
  cases hspelled : asciiSpellings.lookup c with
  | some spelling => exact Or.inl (fold_upper_spelled _ (mem_of_lookup hspelled)).1
  | none =>
    right
    refine ⟨isForeign_upper (Nat.not_lt.1 hlow) hfolded hspelled, ?_⟩
    rw [spellOut, hspelled]
    exact isForeign_of_high (Nat.not_lt.1 hlow) hfolded

/-- The key of a text in upper case is that of the text spelled out, or the two are not plain. -/
theorem fold_upper_text_cases (cs : List Char) :
    fold (upperCase.text cs) = fold (cs.flatMap spellOut) ∨
      IsForeign (upperCase.text cs) ∧ IsForeign (cs.flatMap spellOut) := by
  induction cs with
  | nil => exact Or.inl rfl
  | cons c cs ih =>
    rw [CaseMap.text_cons, List.flatMap_cons]
    rcases fold_upper_cases c with hc | ⟨hupper, hspelled⟩
    · rcases ih with hcs | ⟨hupper, hspelled⟩
      · left
        rw [fold_append, fold_append, hc, hcs]
      · exact Or.inr ⟨hupper.append_right _, hspelled.append_right _⟩
    · exact Or.inr ⟨hupper.append_left _, hspelled.append_left _⟩

/-- A text with a plain key is spelled out as it is. -/
theorem flatMap_spellOut {cs : List Char} (h : ¬ IsForeign cs) : cs.flatMap spellOut = cs := by
  have hself : ∀ c ∈ cs, spellOut c = [c] := by
    intro c hc
    unfold spellOut
    cases hspelled : asciiSpellings.lookup c with
    | none => rfl
    | some spelling =>
      exact absurd (isForeign_of_mem (fold_upper_spelled _ (mem_of_lookup hspelled)).2 hc) h
  rw [List.flatMap_congr hself, List.flatMap_singleton']

theorem keepsVisible_spellOut : KeepsVisible spellOut := by
  intro c hc
  unfold spellOut
  cases hspelled : asciiSpellings.lookup c with
  | none => simpa using hc
  | some spelling =>
    have hvisible : ∀ e ∈ asciiSpellings, e.2 ≠ [] ∧ e.2.any isBlank = false := by
      decide
    obtain ⟨hne, hblank⟩ := hvisible _ (mem_of_lookup hspelled)
    exact ⟨hne, fun d hd => Bool.not_eq_true _ ▸ List.any_eq_false.1 hblank d hd⟩

end UnitLedger.Symbol
