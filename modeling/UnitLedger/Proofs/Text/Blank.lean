import UnitLedger.Text.Blank
import Mathlib.Data.List.Basic
import Mathlib.Data.List.TakeWhile
set_option autoImplicit false

/-! # Texts without blanks at their ends

`trim` gives such a text (`isTrimmed_trim`), and blanks put at the ends of one are taken off it
again (`IsTrimmed.trim_between`).  A text stays trimmed when its characters are replaced by texts
without blanks (`IsTrimmed.flatMap`).
-/

namespace UnitLedger.Text

/-- The text neither starts nor ends with a blank. -/
structure IsTrimmed (cs : List Char) : Prop where
  first : ∀ c ∈ cs.head?, isBlank c = false
  last : ∀ c ∈ cs.getLast?, isBlank c = false

theorem IsTrimmed.trim_eq {cs : List Char} (h : IsTrimmed cs) : trim cs = cs :=
  trim_eq_self h.first h.last

theorem IsTrimmed.trimEnd_eq {cs : List Char} (h : IsTrimmed cs) : trimEnd cs = cs :=
  trimEnd_eq_self h.last

theorem isTrimmed_of_visible {cs : List Char} (h : ∀ c ∈ cs, isBlank c = false) : IsTrimmed cs :=
  ⟨fun c hc => h c (List.mem_of_mem_head? hc), fun c hc => h c (List.mem_of_mem_getLast? hc)⟩

theorem isBlank_of_isDigit {c : Char} (h : c.isDigit = true) : isBlank c = false := by
  rw [Char.isDigit_iff_toNat] at h
  have hzero : '0'.toNat = 48 := rfl
  have hnine : '9'.toNat = 57 := rfl
  rw [hzero, hnine] at h
  simp only [isBlank, inRanges, blankRanges, List.any_cons, List.any_nil, Bool.or_false,
    Bool.or_eq_false_iff, Bool.and_eq_false_iff, decide_eq_false_iff_not]
  omega

/-! ## Taking blanks off -/

theorem head?_dropWhile_isBlank (cs : List Char) :
    ∀ c ∈ (cs.dropWhile isBlank).head?, isBlank c = false := by
  intro c hc
  have hstop := List.head?_dropWhile_not isBlank cs
  rw [Option.mem_def.1 hc] at hstop
  exact hstop

theorem trimEnd_prefix (cs : List Char) : ∃ blanks, (∀ c ∈ blanks, isBlank c = true) ∧
    cs = trimEnd cs ++ blanks := by
  refine ⟨(cs.reverse.takeWhile isBlank).reverse, ?_, ?_⟩
  · intro c hc
    exact List.all_eq_true.1 List.all_takeWhile c (List.mem_reverse.1 hc)
  · have hsplit := List.takeWhile_append_dropWhile (p := isBlank) (l := cs.reverse)
    rw [trimEnd, ← List.reverse_append, hsplit, List.reverse_reverse]

/-- What is taken off a text is blank. -/
theorem exists_eq_trim (cs : List Char) : ∃ before after : List Char,
    (∀ c ∈ before, isBlank c = true) ∧ (∀ c ∈ after, isBlank c = true) ∧
      cs = before ++ (trim cs ++ after) := by
  obtain ⟨after, hafter, heq⟩ := trimEnd_prefix (cs.dropWhile isBlank)
  refine ⟨cs.takeWhile isBlank, after, ?_, hafter, ?_⟩
  · exact List.all_eq_true.1 List.all_takeWhile
  · rw [trim, ← heq, List.takeWhile_append_dropWhile]

theorem isTrimmed_trim (cs : List Char) : IsTrimmed (trim cs) where
  first := by
    intro c hc
    obtain ⟨after, -, heq⟩ := trimEnd_prefix (cs.dropWhile isBlank)
    apply head?_dropWhile_isBlank cs c
    rw [heq, List.head?_append, ← trim, Option.mem_def.1 hc]
    rfl
  last := by
    intro c hc
    rw [trim, trimEnd, List.getLast?_reverse] at hc
    exact head?_dropWhile_isBlank _ c hc

theorem trim_cons_space (cs : List Char) : trim (' ' :: cs) = trim cs := by
  unfold trim
  rw [List.dropWhile_cons_of_pos (by decide)]

theorem trim_eq_self_iff {cs : List Char} : trim cs = cs ↔ IsTrimmed cs :=
  ⟨fun h => h ▸ isTrimmed_trim cs, IsTrimmed.trim_eq⟩

theorem mem_of_mem_trim {c : Char} {cs : List Char} (h : c ∈ trim cs) : c ∈ cs := by
  obtain ⟨before, after, -, -, heq⟩ := exists_eq_trim cs
  rw [heq]
  exact List.mem_append_right _ (List.mem_append_left _ h)

/-! ## Around a visible character -/

/-- Taking blanks off the end leaves everything up to a character that is not blank. -/
theorem trimEnd_append_cons {c : Char} (hc : isBlank c = false) (front back : List Char) :
    trimEnd (front ++ c :: back) = front ++ c :: trimEnd back := by
  have hreverse : (front ++ c :: back).reverse = back.reverse ++ c :: front.reverse := by
    rw [List.reverse_append, List.reverse_cons, List.append_assoc, List.singleton_append]
  have hstop : (c :: front.reverse).dropWhile isBlank = c :: front.reverse :=
    List.dropWhile_cons_of_neg (by simp [hc])
  rw [trimEnd, hreverse, List.dropWhile_append, hstop]
  by_cases hempty : (back.reverse.dropWhile isBlank).isEmpty = true
  · rw [if_pos hempty, trimEnd, List.isEmpty_iff.1 hempty, List.reverse_cons, List.reverse_reverse,
      List.reverse_nil]
  · rw [if_neg hempty, List.reverse_append, List.reverse_cons, List.reverse_reverse,
      List.append_assoc, List.singleton_append, trimEnd]

/-- What is taken off a text stands before or after a given character that is not blank. -/
theorem trim_append_cons {c : Char} (hc : isBlank c = false) (front back : List Char) :
    trim (front ++ c :: back) = front.dropWhile isBlank ++ c :: trimEnd back := by
  have hstop : (c :: back).dropWhile isBlank = c :: back :=
    List.dropWhile_cons_of_neg (by simp [hc])
  rw [trim, List.dropWhile_append, hstop]
  by_cases hempty : (front.dropWhile isBlank).isEmpty = true
  · rw [if_pos hempty, List.isEmpty_iff.1 hempty]
    exact trimEnd_append_cons hc [] back
  · rw [if_neg hempty, trimEnd_append_cons hc]

/-- Some character of the text is not blank. -/
def HasVisible (cs : List Char) : Prop := ∃ c ∈ cs, isBlank c = false

/-- Nothing is taken off between two parts that each have something visible. -/
theorem exists_trim_between {front back : List Char} (hfront : HasVisible front)
    (hback : HasVisible back) :
    ∃ first last, ∀ mid, trim (front ++ (mid ++ back)) = first ++ (mid ++ last) := by
  obtain ⟨a, ha, hvisible⟩ := hfront
  obtain ⟨b, hb, hvisible'⟩ := hback
  obtain ⟨before, after, rfl⟩ := List.append_of_mem ha
  obtain ⟨before', after', rfl⟩ := List.append_of_mem hb
  refine ⟨before.dropWhile isBlank ++ a :: after, before' ++ b :: trimEnd after', fun mid => ?_⟩
  have htail := trimEnd_append_cons hvisible' (after ++ (mid ++ before')) after'
  simp only [List.append_assoc, List.cons_append] at htail ⊢
  rw [trim_append_cons hvisible, htail]

/-! ## Putting blanks on -/

theorem IsTrimmed.trim_between {cs before after : List Char} (h : IsTrimmed cs)
    (hbefore : ∀ c ∈ before, isBlank c = true) (hafter : ∀ c ∈ after, isBlank c = true) :
    trim (before ++ (cs ++ after)) = cs := by
  have hreverse : ∀ c ∈ after.reverse, isBlank c = true :=
    fun c hc => hafter c (List.mem_reverse.1 hc)
  rw [trim, List.dropWhile_append_of_pos hbefore]
  cases cs with
  | nil =>
    rw [List.nil_append, List.dropWhile_eq_nil_iff.2 hafter]
    rfl
  | cons c cs =>
    have hc : isBlank c = false := h.first c rfl
    rw [List.cons_append, List.dropWhile_cons_of_neg (by simp [hc]), ← List.cons_append, trimEnd,
      List.reverse_append, List.dropWhile_append_of_pos hreverse, ← trimEnd, h.trimEnd_eq]

/-- Blanks put around a text are taken off with its own. -/
theorem trim_append_blanks {before after : List Char} (hbefore : ∀ c ∈ before, isBlank c = true)
    (hafter : ∀ c ∈ after, isBlank c = true) (cs : List Char) :
    trim (before ++ (cs ++ after)) = trim cs := by
  obtain ⟨before', after', hbefore', hafter', heq⟩ := exists_eq_trim cs
  have hfirst : ∀ c ∈ before ++ before', isBlank c = true :=
    fun c hc => (List.mem_append.1 hc).elim (hbefore c) (hbefore' c)
  have hlast : ∀ c ∈ after' ++ after, isBlank c = true :=
    fun c hc => (List.mem_append.1 hc).elim (hafter' c) (hafter c)
  have hsplit : before ++ (cs ++ after) =
      (before ++ before') ++ (trim cs ++ (after' ++ after)) := by
    conv => lhs; rw [heq]
    simp only [List.append_assoc]
  rw [hsplit, (isTrimmed_trim cs).trim_between hfirst hlast]

theorem IsTrimmed.append {cs ds : List Char} (hcs : cs ≠ [])
    (hfirst : ∀ c ∈ cs.head?, isBlank c = false) (hds : ds ≠ [])
    (hlast : ∀ c ∈ ds.getLast?, isBlank c = false) : IsTrimmed (cs ++ ds) where
  first := by rwa [List.head?_append_of_ne_nil _ hcs]
  last := by rwa [List.getLast?_append_of_ne_nil _ hds]

/-! ## Replacing characters -/

/-- The replacement of a character that is not blank is something, and nothing in it is blank. -/
def KeepsVisible (f : Char → List Char) : Prop :=
  ∀ c, isBlank c = false → f c ≠ [] ∧ ∀ d ∈ f c, isBlank d = false

theorem IsTrimmed.flatMap {cs : List Char} {f : Char → List Char} (h : IsTrimmed cs)
    (hf : KeepsVisible f) : IsTrimmed (cs.flatMap f) := by
  refine ⟨?_, ?_⟩
  · cases cs with
    | nil => exact h.first
    | cons c cs =>
      obtain ⟨hne, hvisible⟩ := hf c (h.first c rfl)
      intro d hd
      rw [List.flatMap_cons, List.head?_append_of_ne_nil _ hne] at hd
      exact hvisible d (List.mem_of_mem_head? hd)
  · rcases List.eq_nil_or_concat' cs with rfl | ⟨front, c, rfl⟩
    · exact h.last
    · obtain ⟨hne, hvisible⟩ := hf c (h.last c (by simp))
      intro d hd
      rw [List.flatMap_append, List.flatMap_singleton,
        List.getLast?_append_of_ne_nil _ hne] at hd
      exact hvisible d (List.mem_of_mem_getLast? hd)

theorem isTrimmed_iff_any (cs : List Char) :
    IsTrimmed cs ↔ cs.head?.any isBlank = false ∧ cs.getLast?.any isBlank = false := by
  simp only [Option.any_eq_false]
  exact ⟨fun h => ⟨h.first, h.last⟩, fun h => ⟨h.1, h.2⟩⟩

/-- Where each replacement is something, and is blank throughout or not at all, the ends of the
result are blank when the characters that they replace say so. -/
theorem isTrimmed_flatMap_iff {cs : List Char} {f : Char → List Char} {p : Char → Bool}
    (hne : ∀ c ∈ cs, f c ≠ []) (hblank : ∀ c ∈ cs, ∀ d ∈ f c, isBlank d = p c) :
    IsTrimmed (cs.flatMap f) ↔ cs.head?.any p = false ∧ cs.getLast?.any p = false := by
  have hfirst : (cs.flatMap f).head?.any isBlank = cs.head?.any p := by
    cases cs with
    | nil => rfl
    | cons c cs =>
      have hc := List.mem_cons_self (a := c) (l := cs)
      obtain ⟨d, ds, hds⟩ := List.exists_cons_of_ne_nil (hne c hc)
      rw [List.flatMap_cons, hds]
      exact hblank c hc d (hds ▸ List.mem_cons_self)
  have hlast : (cs.flatMap f).getLast?.any isBlank = cs.getLast?.any p := by
    rcases List.eq_nil_or_concat' cs with rfl | ⟨front, c, rfl⟩
    · rfl
    · have hc : c ∈ front ++ [c] := by simp
      obtain ⟨ds, d, hds⟩ := (List.eq_nil_or_concat' (f c)).resolve_left (hne c hc)
      rw [List.flatMap_append, List.flatMap_singleton, hds, ← List.append_assoc,
        List.getLast?_concat, List.getLast?_concat]
      exact hblank c hc d (by rw [hds]; simp)
  rw [isTrimmed_iff_any, hfirst, hlast]

end UnitLedger.Text
