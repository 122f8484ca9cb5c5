import UnitLedger.Text.CaseMap
import UnitLedger.Proofs.Text.Blank
import Mathlib.Data.List.Basic
set_option autoImplicit false

/-! # Case mappings over all characters

What a mapping makes of a code point comes from an expansion, from a run or from nowhere
(`CaseMap.apply_cases`), so a fact about all characters is one about the entries of the tables.
Along a run it is enough to look at the ends (`CaseRun.holds_bounds`, `CaseRun.Avoids`).  Among
ASCII characters the mappings are those of core (`lowerCase_char_ascii`, `upperCase_char_ascii`).
Neither mapping makes blanks, and what is in lower case stays as it is (`lowerCase_char_of_mem`).
-/

namespace UnitLedger.Text

/-! ## Entries -/

theorem CaseRun.holds_bounds {r : CaseRun} {n : Nat} (h : r.holds n = true) :
    r.first ≤ n ∧ n ≤ r.last := by
  rw [holds, Bool.and_eq_true, Bool.and_eq_true, decide_eq_true_iff, decide_eq_true_iff] at h
  exact h.1

theorem mem_of_lookup {α β : Type} [BEq α] [LawfulBEq α] {l : List (α × β)} {k : α} {b : β}
    (h : l.lookup k = some b) : (k, b) ∈ l := by
  obtain ⟨front, back, rfl, -⟩ := List.lookup_eq_some_iff.1 h
  exact List.mem_append_right _ List.mem_cons_self

/-- Where the image of a code point comes from. -/
theorem CaseMap.apply_cases (m : CaseMap) (n : Nat) :
    (n, m.apply n) ∈ m.expansions ∨
      (∃ r ∈ m.runs, r.holds n = true ∧ m.apply n = [r.apply n]) ∨ m.apply n = [n] := by
  unfold apply
  split
  · next ns hns => exact Or.inl (mem_of_lookup hns)
  · split
    · next r hr =>
      have hholds : r.holds n = true := by simpa using List.find?_some hr
      exact Or.inr (Or.inl ⟨r, List.mem_of_find?_eq_some hr, hholds, rfl⟩)
    · exact Or.inr (Or.inr rfl)

/-- Where a character of the image of a character comes from. -/
theorem CaseMap.mem_char_cases {m : CaseMap} {c d : Char} (h : d ∈ m.char c) :
    (∃ e ∈ m.expansions, ∃ n ∈ e.2, d = Char.ofNat n) ∨
      (∃ r ∈ m.runs, r.holds c.toNat = true ∧ d = Char.ofNat (r.apply c.toNat)) ∨
      d = c ∧ m.char c = [c] := by
  obtain ⟨n, hn, rfl⟩ := List.mem_map.1 h
  rcases m.apply_cases c.toNat with hexpansion | ⟨r, hr, hholds, heq⟩ | heq
  · exact Or.inl ⟨_, hexpansion, n, hn, rfl⟩
  · rw [heq, List.mem_singleton] at hn
    exact Or.inr (Or.inl ⟨r, hr, hholds, by rw [hn]⟩)
  · rw [heq, List.mem_singleton] at hn
    rw [hn, char, heq, List.map_singleton, Char.ofNat_toNat]
    exact Or.inr (Or.inr ⟨rfl, rfl⟩)

/-! ## Characters of code points -/

/-- A number that is no code point stands for the null character. -/
theorem toNat_ofNat_eq_or (n : Nat) : (Char.ofNat n).toNat = n ∨ (Char.ofNat n).toNat = 0 := by
  by_cases h : n.isValidChar
  · left
    rw [Char.ofNat, dif_pos h]
    rfl
  · right
    rw [Char.ofNat, dif_neg h]
    rfl

theorem isBlank_ofNat {n : Nat} (h : inRanges blankRanges n = false) :
    isBlank (Char.ofNat n) = false := by
  unfold isBlank
  rcases toNat_ofNat_eq_or n with hn | hn <;> rw [hn]
  · exact h
  · decide

/-! ## ASCII -/

/-- Below all other entries a mapping is its first run. -/
theorem CaseMap.apply_of_low {m : CaseMap} {r : CaseRun} {rs : List CaseRun} {n : Nat}
    (hruns : m.runs = r :: rs) (hexpansions : ∀ e ∈ m.expansions, n < e.1)
    (hrs : ∀ s ∈ rs, n < s.first) :
    m.apply n = if r.holds n = true then [r.apply n] else [n] := by
  have hlookup : m.expansions.lookup n = none := by
    rw [List.lookup_eq_none_iff]
    intro e he
    rw [bne_iff_ne]
    exact Nat.ne_of_lt (hexpansions e he)
  have hrest : rs.find? (·.holds n) = none := by
    rw [List.find?_eq_none]
    intro s hs hholds
    exact Nat.not_le.2 (hrs s hs) (CaseRun.holds_bounds hholds).1
  unfold apply
  rw [hlookup, hruns, List.find?_cons]
  cases r.holds n with
  | true => rfl
  | false =>
    rw [hrest]
    rfl

set_option maxRecDepth 2000 in
theorem lowerCase_high : (∀ e ∈ lowerCase.expansions, 128 ≤ e.1) ∧
    ∀ s ∈ lowerRuns.tail, 128 ≤ s.first := by
  decide

set_option maxRecDepth 2000 in
theorem upperCase_high : (∀ e ∈ upperCase.expansions, 128 ≤ e.1) ∧
    ∀ s ∈ upperRuns.tail, 128 ≤ s.first := by
  decide

theorem toLower_ascii : ∀ n < 128,
    (if (⟨0x41, 0x5A, 1, 32⟩ : CaseRun).holds n = true then
        [(⟨0x41, 0x5A, 1, 32⟩ : CaseRun).apply n] else [n]).map Char.ofNat =
      [(Char.ofNat n).toLower] := by
  decide

theorem toUpper_ascii : ∀ n < 128,
    (if (⟨0x61, 0x7A, 1, -32⟩ : CaseRun).holds n = true then
        [(⟨0x61, 0x7A, 1, -32⟩ : CaseRun).apply n] else [n]).map Char.ofNat =
      [(Char.ofNat n).toUpper] := by
  decide

/-- Among ASCII characters the mapping is core's. -/
theorem lowerCase_char_ascii {c : Char} (h : c.toNat < 128) : lowerCase.char c = [c.toLower] := by
  obtain ⟨hexpansions, hruns⟩ := lowerCase_high
  have hfirst : lowerCase.runs = ⟨0x41, 0x5A, 1, 32⟩ :: lowerRuns.tail := rfl
  have happly := CaseMap.apply_of_low hfirst
    (fun e he => Nat.lt_of_lt_of_le h (hexpansions e he))
    (fun s hs => Nat.lt_of_lt_of_le h (hruns s hs))
  have hcore := toLower_ascii _ h
  rw [Char.ofNat_toNat] at hcore
  rw [CaseMap.char, happly, hcore]

theorem upperCase_char_ascii {c : Char} (h : c.toNat < 128) : upperCase.char c = [c.toUpper] := by
  obtain ⟨hexpansions, hruns⟩ := upperCase_high
  have hfirst : upperCase.runs = ⟨0x61, 0x7A, 1, -32⟩ :: upperRuns.tail := rfl
  have happly := CaseMap.apply_of_low hfirst
    (fun e he => Nat.lt_of_lt_of_le h (hexpansions e he))
    (fun s hs => Nat.lt_of_lt_of_le h (hruns s hs))
  have hcore := toUpper_ascii _ h
  rw [Char.ofNat_toNat] at hcore
  rw [CaseMap.char, happly, hcore]

/-! ## Images along a run -/

/-- The images under a run lie apart from the ranges. -/
def CaseRun.Avoids (r : CaseRun) (ranges : List (Nat × Nat)) : Prop :=
  0 ≤ r.first + r.shift ∧ ∀ b ∈ ranges,
    (r.last : Int) + r.shift < b.1 ∨ (b.2 : Int) < r.first + r.shift

instance (r : CaseRun) (ranges : List (Nat × Nat)) : Decidable (r.Avoids ranges) :=
  inferInstanceAs (Decidable (_ ∧ _))

theorem CaseRun.Avoids.inRanges_apply {r : CaseRun} {ranges : List (Nat × Nat)} {n : Nat}
    (h : r.Avoids ranges) (hn : r.holds n = true) : inRanges ranges (r.apply n) = false := by
  obtain ⟨hfirst, hlast⟩ := CaseRun.holds_bounds hn
  obtain ⟨hnonneg, hapart⟩ := h
  unfold inRanges CaseRun.apply
  rw [List.any_eq_false]
  intro b hb
  have := hapart b hb
  rw [Bool.and_eq_true, decide_eq_true_iff, decide_eq_true_iff]
  omega

/-- No image under `r` is mapped by `s`: the two lie apart, or `s` maps every other code point and
the images are those between. -/
def CaseRun.misses (r s : CaseRun) : Bool :=
  r.apply r.last < s.first || s.last < r.apply r.first ||
    (s.step == 2 && (r.step == 2 || r.first == r.last) && (r.apply r.first + s.first) % 2 == 1)

theorem CaseRun.holds_apply_of_misses {r s : CaseRun} {n : Nat} (h : r.misses s = true)
    (hnonneg : 0 ≤ r.first + r.shift) (hn : r.holds n = true) : s.holds (r.apply n) = false := by
  obtain ⟨hfirst, hlast⟩ := CaseRun.holds_bounds hn
  rw [← Bool.not_eq_true]
  intro hmapped
  obtain ⟨hfirst', hlast'⟩ := CaseRun.holds_bounds hmapped
  simp only [misses, Bool.or_eq_true, Bool.and_eq_true, decide_eq_true_iff, beq_iff_eq] at h
  unfold CaseRun.apply at h hfirst' hlast'
  rcases h with (hbelow | habove) | ⟨⟨hstep', hstep⟩, hodd⟩
  · omega
  · omega
  · -- the image differs from the first code point of `s` by an odd number
    simp only [holds, apply, hstep', Bool.and_eq_true, beq_iff_eq] at hmapped
    have heven : (n - r.first) % 2 = 0 := by
      rcases hstep with hstep | hsingle
      · simp only [holds, hstep, Bool.and_eq_true, beq_iff_eq] at hn
        exact hn.2
      · omega
    omega

/-! ## Blanks -/

/-- A mapping makes no blanks when none of its entries does. -/
theorem CaseMap.keepsVisible {m : CaseMap}
    (hexpansions : ∀ e ∈ m.expansions, e.2 ≠ [] ∧ ∀ n ∈ e.2, inRanges blankRanges n = false)
    (hruns : ∀ r ∈ m.runs, r.Avoids blankRanges) : KeepsVisible m.char := by
  intro c hc
  unfold CaseMap.char
  rcases m.apply_cases c.toNat with hexpansion | ⟨r, hr, hholds, heq⟩ | heq
  · obtain ⟨hne, hvisible⟩ := hexpansions _ hexpansion
    refine ⟨mt List.map_eq_nil_iff.1 hne, fun d hd => ?_⟩
    obtain ⟨n, hn, rfl⟩ := List.mem_map.1 hd
    exact isBlank_ofNat (hvisible n hn)
  · rw [heq]
    refine ⟨List.cons_ne_nil _ _, fun d hd => ?_⟩
    rw [List.map_singleton, List.mem_singleton] at hd
    rw [hd]
    exact isBlank_ofNat ((hruns r hr).inRanges_apply hholds)
  · rw [heq, List.map_singleton, Char.ofNat_toNat]
    refine ⟨List.cons_ne_nil _ _, fun d hd => ?_⟩
    rw [List.mem_singleton.1 hd]
    exact hc

theorem upperExpansions_visible : ∀ e ∈ upperExpansions,
    e.2 ≠ [] ∧ ∀ n ∈ e.2, inRanges blankRanges n = false := by
  decide

set_option maxRecDepth 2000 in
/-- No run of the mapping to upper case reaches a blank. -/
theorem upperRuns_visible : ∀ r ∈ upperRuns, r.Avoids blankRanges := by
  decide

/-- Upper case makes no blanks. -/
theorem keepsVisible_upperCase : KeepsVisible upperCase.char :=
  CaseMap.keepsVisible upperExpansions_visible upperRuns_visible

set_option maxRecDepth 2000 in
/-- No run of the mapping to lower case maps a blank or reaches one. -/
theorem lowerRuns_visible : ∀ r ∈ lowerRuns,
    r.Avoids blankRanges ∧ ∀ b ∈ blankRanges, r.last < b.1 ∨ b.2 < r.first := by
  decide

/-- Lower case makes no blanks. -/
theorem keepsVisible_lowerCase : KeepsVisible lowerCase.char :=
  CaseMap.keepsVisible (by decide) fun r hr => (lowerRuns_visible r hr).1

/-- Lower case leaves blanks alone. -/
theorem lowerCase_char_blank {c : Char} (h : isBlank c = true) : lowerCase.char c = [c] := by
  obtain ⟨b, hb, hrange⟩ := List.any_eq_true.1 h
  rw [Bool.and_eq_true, decide_eq_true_iff, decide_eq_true_iff] at hrange
  rw [CaseMap.char]
  rcases lowerCase.apply_cases c.toNat with hexpansion | ⟨r, hr, hholds, -⟩ | heq
  · have hcode : c.toNat = 0x130 := (Prod.mk.inj (List.mem_singleton.1 hexpansion)).1
    rw [isBlank, hcode] at h
    exact absurd h (by decide)
  · have hbounds := CaseRun.holds_bounds hholds
    have := (lowerRuns_visible r hr).2 b hb
    omega
  · rw [heq, List.map_singleton, Char.ofNat_toNat]

/-! ## Lower case of lower case -/

set_option maxRecDepth 2000 in
/-- No image under a run of the mapping to lower case is mapped again. -/
theorem lowerRuns_settled : ∀ r ∈ lowerRuns,
    r.Avoids [(0x130, 0x130)] ∧ lowerRuns.all r.misses = true := by
  decide +kernel

/-- What is in lower case stays as it is. -/
theorem lowerCase_char_of_mem {c d : Char} (h : d ∈ lowerCase.char c) : lowerCase.char d = [d] := by
  rcases CaseMap.mem_char_cases h with ⟨e, he, n, hn, rfl⟩ | ⟨r, hr, hholds, rfl⟩ | ⟨rfl, hself⟩
  · have hclosed : ∀ e ∈ lowerCase.expansions, ∀ n ∈ e.2,
        lowerCase.char (Char.ofNat n) = [Char.ofNat n] := by
      decide
    exact hclosed e he n hn
  · obtain ⟨havoids, hmisses⟩ := lowerRuns_settled r hr
    rcases toNat_ofNat_eq_or (r.apply c.toNat) with hvalid | hzero
    · apply CaseMap.char_eq_self
      · have hcode : r.apply c.toNat ≠ 0x130 := by
          intro hcode
          have hclear := havoids.inRanges_apply hholds
          rw [hcode] at hclear
          exact absurd hclear (by decide)
        rw [hvalid, List.lookup_eq_none_iff]
        exact List.forall_mem_singleton.2 (bne_iff_ne.2 hcode)
      · rw [hvalid, List.find?_eq_none]
        intro s hs
        rw [CaseRun.holds_apply_of_misses (List.all_eq_true.1 hmisses s hs) havoids.1 hholds]
        exact Bool.false_ne_true
    · -- no code point, so the null character
      rw [← Char.ofNat_toNat (Char.ofNat _), hzero]
      decide
  · exact hself

end UnitLedger.Text
