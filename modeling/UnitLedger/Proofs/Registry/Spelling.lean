import UnitLedger.Proofs.Registry
import UnitLedger.Proofs.Symbol
set_option autoImplicit false

/-! # Spellings of the built-in units

Every key under which the built-in units are found is a word of small letters, digits and
underscores (`isWordKey_of_find?`), so a symbol with any other character in its key names no unit.
A symbol in upper case names what it names spelled out (`find?_upper`).
-/

namespace UnitLedger.Registry

open Text UnitLedger.Symbol

/-! ## Keys -/

/-- A small letter and after it characters of plain keys. -/
def IsWordKey : List Char → Prop
  | [] => False
  | c :: cs => isSmallLetter c = true ∧ cs.all isKeyChar = true

instance : DecidablePred IsWordKey
  | [] => inferInstanceAs (Decidable False)
  | _ :: _ => inferInstanceAs (Decidable (_ ∧ _))

theorem isWordKey_builtin :
    (∀ e ∈ builtin.index, IsWordKey e.1) ∧ ∀ e ∈ builtin.aliases, IsWordKey e.1 := by
  decide +kernel

/-- Only words are found. -/
theorem isWordKey_of_find? {symbol : String} {u : MeasureUnit}
    (h : builtin.find? symbol = some u) : IsWordKey (Symbol.key symbol) := by
  unfold find? unitAt? resolve at h
  obtain ⟨i, hi, -⟩ := Option.bind_eq_some_iff.1 h
  cases halias : builtin.aliases.lookup (Symbol.key symbol) with
  | some target => exact isWordKey_builtin.2 _ (mem_of_lookup halias)
  | none =>
    rw [halias] at hi
    exact isWordKey_builtin.1 _ (mem_of_lookup hi)

theorem IsWordKey.isKeyChar {key : List Char} (h : IsWordKey key) :
    ∀ d ∈ key, isKeyChar d = true := by
  cases key with
  | nil => exact absurd h id
  | cons c cs =>
    intro d hd
    rcases List.mem_cons.1 hd with rfl | htail
    · exact isKeyChar_of_isSmallLetter h.1
    · exact List.all_eq_true.1 h.2 d htail

/-- A text whose key is not plain names no unit. -/
theorem not_isForeign_of_find? {symbol : String} {u : MeasureUnit}
    (h : builtin.find? symbol = some u) : ¬ IsForeign (trim symbol.toList) := by
  rintro ⟨d, hd, hkey⟩
  rw [(isWordKey_of_find? h).isKeyChar d hd] at hkey
  cases hkey

/-! ## Symbols of one key -/

theorem key_ofList {cs : List Char} (h : IsTrimmed cs) :
    Symbol.key (String.ofList cs) = fold cs := by
  rw [Symbol.key, String.toList_ofList, h.trim_eq]

theorem find?_ofList_trim (r : Registry) (symbol : String) :
    r.find? (String.ofList (trim symbol.toList)) = r.find? symbol := by
  rw [find?, key_ofList (isTrimmed_trim _)]
  rfl

theorem find?_of_isForeign {cs : List Char} (h : IsTrimmed cs) (hforeign : IsForeign cs) :
    builtin.find? (String.ofList cs) = none := by
  cases hfind : builtin.find? (String.ofList cs) with
  | none => rfl
  | some u =>
    have hplain := not_isForeign_of_find? hfind
    rw [String.toList_ofList, h.trim_eq] at hplain
    exact absurd hforeign hplain

/-! ## Upper case -/

/-- In upper case a text names the unit that it names spelled out. -/
theorem find?_upper {cs : List Char} (h : IsTrimmed cs) :
    builtin.find? (String.ofList (upperCase.text cs)) =
      builtin.find? (String.ofList (cs.flatMap spellOut)) := by
  have hupper : IsTrimmed (upperCase.text cs) := h.flatMap keepsVisible_upperCase
  have hspelled : IsTrimmed (cs.flatMap spellOut) := h.flatMap keepsVisible_spellOut
  rcases fold_upper_text_cases cs with hfold | ⟨hforeign, hforeign'⟩
  · rw [find?, find?, key_ofList hupper, key_ofList hspelled, hfold]
  · rw [find?_of_isForeign hupper hforeign, find?_of_isForeign hspelled hforeign']

/-- A symbol that names a unit names it in upper case. -/
theorem find?_upper_of_find? {symbol : String} {u : MeasureUnit}
    (h : builtin.find? symbol = some u) :
    builtin.find? (String.ofList (upperCase.text (trim symbol.toList))) = some u := by
  rw [find?_upper (isTrimmed_trim _), flatMap_spellOut (not_isForeign_of_find? h),
    find?_ofList_trim, h]

end UnitLedger.Registry
