set_option autoImplicit false

/-! # Splitting text

Cutting a text at the first or the last character of a kind, and taking a sign off its front.  The
separator belongs to neither part: `eq_append_of_splitFirst` puts the text together again.
-/

namespace UnitLedger.Text

/-- What stands before and after the first character with property `p`. -/
def splitFirst (p : Char → Bool) (cs : List Char) : Option (List Char × List Char) :=
  match cs.dropWhile (fun c => !p c) with
  | [] => none
  | _ :: after => some (cs.takeWhile (fun c => !p c), after)

/-- What stands before and after the last character with property `p`. -/
def splitLast (p : Char → Bool) (cs : List Char) : Option (List Char × List Char) :=
  (splitFirst p cs.reverse).map fun (after, before) => (before.reverse, after.reverse)

theorem eq_append_of_splitFirst {p : Char → Bool} {cs before after : List Char}
    (h : splitFirst p cs = some (before, after)) : ∃ c, cs = before ++ c :: after := by
  unfold splitFirst at h
  split at h
  · simp at h
  · next c r hd =>
    simp only [Option.some.injEq, Prod.mk.injEq] at h
    obtain ⟨rfl, rfl⟩ := h
    exact ⟨c, by rw [← hd, List.takeWhile_append_dropWhile]⟩

theorem splitFirst_eq_none_iff {p : Char → Bool} {cs : List Char} :
    splitFirst p cs = none ↔ ∀ c ∈ cs, p c = false := by
  have hnil : cs.dropWhile (fun c => !p c) = [] ↔ ∀ c ∈ cs, p c = false := by
    induction cs with
    | nil => simp
    | cons c r ih => cases hc : p c <;> simp [hc, ih]
  rw [← hnil, splitFirst]
  split <;> simp [*]

/-- A text is cut at a separator that has none before it. -/
theorem splitFirst_append {p : Char → Bool} {before : List Char}
    (hbefore : ∀ c ∈ before, p c = false) {c : Char} (hc : p c = true) (after : List Char) :
    splitFirst p (before ++ c :: after) = some (before, after) := by
  have hkept : ∀ d ∈ before, (!p d) = true := fun d hd => by rw [hbefore d hd, Bool.not_false]
  have hdrop : (c :: after).dropWhile (fun d => !p d) = c :: after := by
    rw [List.dropWhile_cons, hc]
    rfl
  have htake : (c :: after).takeWhile (fun d => !p d) = [] := by
    rw [List.takeWhile_cons, hc]
    rfl
  rw [splitFirst, List.dropWhile_append_of_pos hkept, List.takeWhile_append_of_pos hkept, hdrop,
    htake, List.append_nil]

theorem splitLast_eq_none {p : Char → Bool} {cs : List Char} (h : ∀ c ∈ cs, p c = false) :
    splitLast p cs = none := by
  rw [splitLast, splitFirst_eq_none_iff.2 fun c hc => h c (List.mem_reverse.1 hc), Option.map_none]

/-- A text is cut at a separator that has none after it. -/
theorem splitLast_append {p : Char → Bool} {after : List Char} (hafter : ∀ c ∈ after, p c = false)
    {c : Char} (hc : p c = true) (before : List Char) :
    splitLast p (before ++ c :: after) = some (before, after) := by
  have hreverse : (before ++ c :: after).reverse = after.reverse ++ c :: before.reverse := by
    rw [List.reverse_append, List.reverse_cons, List.append_assoc, List.singleton_append]
  rw [splitLast, hreverse, splitFirst_append (fun d hd => hafter d (List.mem_reverse.1 hd)) hc,
    Option.map_some]
  dsimp only
  rw [List.reverse_reverse, List.reverse_reverse]

/-- A sign, read as "negative", and the rest; no sign counts as plus. -/
def splitSign : List Char → Bool × List Char
  | '-' :: rest => (true, rest)
  | '+' :: rest => (false, rest)
  | rest => (false, rest)

/-- Without a sign nothing is taken off. -/
theorem splitSign_of_ne {c : Char} (hminus : c ≠ '-') (hplus : c ≠ '+') (rest : List Char) :
    splitSign (c :: rest) = (false, c :: rest) := by
  unfold splitSign
  split
  · next heq => exact absurd (List.cons.inj heq).1 hminus
  · next heq => exact absurd (List.cons.inj heq).1 hplus
  · rfl

end UnitLedger.Text
