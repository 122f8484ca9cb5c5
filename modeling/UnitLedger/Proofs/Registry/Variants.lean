import UnitLedger.Proofs.Symbol
import UnitLedger.Registry.Tables
import Mathlib.Logic.Relation
set_option autoImplicit false

/-! # Variants of a spelling

A symbol can be typed in several ways: in small or capital letters, with blanks around it, with
another separator between its words, with a digit raised or behind a caret.  One edit of such a kind
leaves the key alone (`key_eq_of_edit`), so any number of them leads to the same unit, or to none
(`find?_variants`), in every registry.
-/

namespace UnitLedger

namespace Symbol

open Text

/-- The characters that can stand between the words of a symbol. -/
def separators : List Char := ['_', '-', ' ']

/-- One edit of a spelling.  A place is inside the text, between the first and the last character
that stay when the text is trimmed, just when there is something visible on either side of it. -/
inductive Edit : List Char → List Char → Prop
  /-- An ASCII letter changes its case. -/
  | letterCase (front back : List Char) {c d : Char} (hc : c.isAlpha = true)
      (hd : d = c.toUpper ∨ d = c.toLower) : Edit (front ++ c :: back) (front ++ d :: back)
  /-- Blanks are put around the text. -/
  | blanks {before after : List Char} (cs : List Char) (hbefore : ∀ c ∈ before, isBlank c = true)
      (hafter : ∀ c ∈ after, isBlank c = true) : Edit cs (before ++ (cs ++ after))
  /-- A separator inside the text becomes another one. -/
  | separator {front back : List Char} {c d : Char} (hfront : HasVisible front)
      (hback : HasVisible back) (hc : c ∈ separators) (hd : d ∈ separators) :
      Edit (front ++ c :: back) (front ++ d :: back)
  /-- A digit is raised. -/
  | raised (front back : List Char) {c d : Char} (h : (c, d) = ('2', '²') ∨ (c, d) = ('3', '³')) :
      Edit (front ++ c :: back) (front ++ d :: back)
  /-- A caret is put inside the text. -/
  | caret {front back : List Char} (hfront : HasVisible front) (hback : HasVisible back) :
      Edit (front ++ back) (front ++ '^' :: back)

/-- The texts are joined by edits, each made or undone. -/
def IsVariant : List Char → List Char → Prop := Relation.EqvGen Edit

/-! ## Keys -/

/-- A visible character can be replaced by another one that contributes the same to a key. -/
theorem fold_trim_replace {c d : Char} (hc : isBlank c = false) (hd : isBlank d = false)
    (h : foldChar c = foldChar d) (front back : List Char) :
    fold (trim (front ++ c :: back)) = fold (trim (front ++ d :: back)) := by
  rw [trim_append_cons hc, trim_append_cons hd, fold_append, fold_append, fold_cons, fold_cons, h]

/-- Inside a text any part can be replaced by another one that contributes the same to a key. -/
theorem fold_trim_inside {front back : List Char} (hfront : HasVisible front)
    (hback : HasVisible back) {mid mid' : List Char} (h : fold mid = fold mid') :
    fold (trim (front ++ (mid ++ back))) = fold (trim (front ++ (mid' ++ back))) := by
  obtain ⟨first, last, htrim⟩ := exists_trim_between hfront hback
  simp only [htrim, fold_append, h]

theorem letter_cases : ∀ n < 128, (Char.ofNat n).isAlpha = true →
    [Char.ofNat n, (Char.ofNat n).toUpper, (Char.ofNat n).toLower].all fun d =>
      d.toNat < 128 ∧ isBlank d = false ∧ foldAscii d = foldAscii (Char.ofNat n) := by
  decide

/-- A letter is visible in either case, and both contribute the same to a key. -/
theorem foldChar_letter {c d : Char} (hc : c.isAlpha = true)
    (hd : d ∈ [c, c.toUpper, c.toLower]) : isBlank d = false ∧ foldChar d = foldChar c := by
  have hlow : c.toNat < 128 := by
    rcases (Bool.or_eq_true_iff ..).1 hc with hupper | hlower
    · have hle : c.val ≤ 'Z'.val := (of_decide_eq_true hupper).2
      exact Nat.lt_of_le_of_lt (UInt32.le_iff_toNat_le.1 hle) (by decide)
    · have hle : c.val ≤ 'z'.val := of_decide_eq_true (Bool.and_eq_true_iff.1 hlower).2
      exact Nat.lt_of_le_of_lt (UInt32.le_iff_toNat_le.1 hle) (by decide)
  have hself : Char.ofNat c.toNat = c := Char.ofNat_toNat c
  have hcases := letter_cases c.toNat hlow
  rw [hself] at hcases
  obtain ⟨hd128, hvisible, hfold⟩ := of_decide_eq_true (List.all_eq_true.1 (hcases hc) d hd)
  exact ⟨hvisible, by rw [foldChar_ascii hd128, foldChar_ascii hlow, hfold]⟩

theorem fold_separator {c : Char} (hc : c ∈ separators) : fold [c] = ['_'] := by
  simp only [separators, List.mem_cons, List.not_mem_nil, or_false] at hc
  rcases hc with rfl | rfl | rfl <;> decide

/-- An edit leaves the key alone. -/
theorem key_eq_of_edit {cs ds : List Char} (h : Edit cs ds) : fold (trim cs) = fold (trim ds) := by
  cases h with
  | letterCase front back hc hd =>
    obtain ⟨hvisible, -⟩ := foldChar_letter hc List.mem_cons_self
    obtain ⟨hvisible', hfold⟩ := foldChar_letter hc (List.mem_cons_of_mem _ (by simpa using hd))
    exact fold_trim_replace hvisible hvisible' hfold.symm front back
  | blanks _ hbefore hafter => rw [trim_append_blanks hbefore hafter]
  | separator hfront hback hc hd =>
    exact fold_trim_inside hfront hback ((fold_separator hc).trans (fold_separator hd).symm)
  | raised front back h =>
    rcases h with h | h <;> obtain ⟨rfl, rfl⟩ := Prod.mk.inj h <;>
      exact fold_trim_replace (by decide) (by decide) (by decide) front back
  | caret hfront hback =>
    exact fold_trim_inside hfront hback (show fold [] = fold ['^'] by decide)

/-- All variants of a spelling have one key. -/
theorem IsVariant.key_eq {cs ds : List Char} (h : IsVariant cs ds) :
    fold (trim cs) = fold (trim ds) := by
  induction h with
  | rel _ _ hedit => exact key_eq_of_edit hedit
  | refl _ => rfl
  | symm _ _ _ ih => exact ih.symm
  | trans _ _ _ _ _ ih ih' => exact ih.trans ih'

end Symbol

namespace Registry

open UnitLedger.Symbol

/-- Variants of a spelling name the same unit, or none of them names one: looked up anywhere or in a
dimension, for known and unknown symbols, in every registry. -/
theorem find?_variants {s t : String} (h : IsVariant s.toList t.toList) (r : Registry) :
    r.find? s = r.find? t ∧ ∀ d u, r.lookup d s = .ok u ↔ r.lookup d t = .ok u := by
  have hfind : r.find? s = r.find? t := by
    rw [find?, find?, key, key, h.key_eq]
  exact ⟨hfind, fun d u => by rw [lookup_eq_ok_iff, lookup_eq_ok_iff, hfind]⟩

/-- Fluid ounces with a space for the underscore, a caret, a capital letter and a wide blank in
front. -/
theorem find?_variants_ounces :
    IsVariant "fl_oz".toList "\u3000F^l oz".toList ∧
      (builtin.find? "fl_oz").map (·.name) = some "US fluid ounce" ∧
      builtin.find? "fl_oz" = builtin.find? "\u3000F^l oz" ∧
      ∀ d u, builtin.lookup d "fl_oz" = .ok u ↔ builtin.lookup d "\u3000F^l oz" = .ok u := by
  have hseparator : Edit "fl_oz".toList "fl oz".toList :=
    @Edit.separator ['f', 'l'] ['o', 'z'] '_' ' ' ⟨'f', by decide⟩ ⟨'o', by decide⟩ (by decide)
      (by decide)
  have hcaret : Edit "fl oz".toList "f^l oz".toList :=
    @Edit.caret ['f'] ['l', ' ', 'o', 'z'] ⟨'f', by decide⟩ ⟨'l', by decide⟩
  have hletter : Edit "f^l oz".toList "F^l oz".toList :=
    @Edit.letterCase [] ['^', 'l', ' ', 'o', 'z'] 'f' 'F' rfl (Or.inl rfl)
  have hblank : Edit "F^l oz".toList "\u3000F^l oz".toList :=
    @Edit.blanks ['\u3000'] [] ['F', '^', 'l', ' ', 'o', 'z'] (List.forall_mem_singleton.2 rfl)
      (List.forall_mem_nil _)
  have hvariant : IsVariant "fl_oz".toList "\u3000F^l oz".toList :=
    (((Relation.EqvGen.rel _ _ hseparator).trans _ _ _ (.rel _ _ hcaret)).trans _ _ _
      (.rel _ _ hletter)).trans _ _ _ (.rel _ _ hblank)
  exact ⟨hvariant, by decide +kernel, find?_variants hvariant builtin⟩

end Registry

end UnitLedger
