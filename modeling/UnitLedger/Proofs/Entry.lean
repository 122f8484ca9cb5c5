import UnitLedger.Proofs.Decimal.Binary
import UnitLedger.Proofs.Entry.Literal
import UnitLedger.Proofs.Entry.Token
import UnitLedger.Proofs.Format
set_option autoImplicit false

/-! # Reading the text of a quantity

The text that is written for a quantity is an entry again: its number is read to the last digit when
it has no more than fifteen that are significant, and its symbol, in upper case, names the unit it
came from (`exists_parse?`).
-/

namespace UnitLedger.Entry

open Text Binary64 Numeral Decimal Exact Format

/-! ## Unit tokens -/

/-- A character that neither ends nor is left out of the text of an entry. -/
def isPlain (c : Char) : Bool := !isBlank c && c != ','

theorem isPlain_iff (c : Char) : isPlain c = true ↔ isBlank c = false ∧ c ≠ ',' := by
  simp [isPlain]

/-- A symbol of the tables is a text of plain characters that does not start with a caret. -/
theorem isPlain_symbol : ∀ u ∈ Registry.builtin.units,
    u.symbol.toList.head?.any (· != '^') = true ∧ u.symbol.toList.all isPlain = true := by
  decide +kernel

theorem symbol_chars {u : MeasureUnit} (hu : u ∈ Registry.builtin.units) :
    u.symbol.toList ≠ [] ∧ ∀ c ∈ u.symbol.toList, isBlank c = false ∧ c ≠ ',' := by
  obtain ⟨hhead, hplain⟩ := isPlain_symbol u hu
  rw [List.all_eq_true] at hplain
  refine ⟨?_, fun c hc => (isPlain_iff c).1 (hplain c hc)⟩
  intro hnil
  rw [hnil] at hhead
  cases hhead

theorem head?_symbol_ne_caret {u : MeasureUnit} (hu : u ∈ Registry.builtin.units) :
    u.symbol.toList.head? ≠ some '^' := by
  intro hcaret
  have hhead := (isPlain_symbol u hu).1
  rw [hcaret] at hhead
  exact absurd hhead (by decide)

theorem trim_symbol {u : MeasureUnit} (hu : u ∈ Registry.builtin.units) :
    trim u.symbol.toList = u.symbol.toList := by
  obtain ⟨-, hchars⟩ := symbol_chars hu
  exact trim_eq_self (fun c hc => (hchars c (List.mem_of_mem_head? hc)).1)
    fun c hc => (hchars c (List.mem_of_mem_getLast? hc)).1

/-- The token of a symbol names the unit of the symbol. -/
theorem exists_tokenUnit? {u : MeasureUnit} (hu : u ∈ Registry.builtin.units) :
    ∃ token, tokenUnit? u.symbol.toList = some token ∧
      Registry.builtin.find? (String.ofList token) = some u := by
  have hfind := Registry.find?_symbol u hu
  have htrim := trim_symbol hu
  have hcaret := head?_symbol_ne_caret hu
  rw [← htrim] at hcaret
  have htoken := tokenUnit?_of_find? hfind hcaret
  rw [htrim] at htoken
  have hupper := Registry.find?_upper_of_find? hfind
  rw [htrim] at hupper
  exact ⟨_, htoken, hupper⟩

/-! ## The entry -/

/-- A numeral has no blanks and no commas. -/
theorem numeral_chars {n : Int} {places : Nat} {c : Char} (h : c ∈ numeral n places) :
    isBlank c = false ∧ c ≠ ',' := by
  rw [← DecimalLiteral.text_ofScaled] at h
  exact (DecimalLiteral.ofScaled n places).text_chars c h

/-- A numeral is taken off an entry with its sign. -/
theorem takeNumber?_numeral (n : Int) (places : Nat) {rest : List Char}
    (hrest : ∀ c ∈ rest.head?, c.isDigit = false ∧ c ≠ '.') :
    takeNumber? (numeral n places ++ rest) =
      some ((⟨n.natAbs, places⟩ : Literal).toBinary64 (decide (n < 0)) 0, rest) := by
  rw [← DecimalLiteral.text_ofScaled, takeNumber?_text _ hrest, DecimalLiteral.double_ofScaled]

theorem toList_quantityText (n : Int) (places : Nat) (symbol : String) :
    (quantityText n places symbol).toList = numeral n places ++ ' ' :: symbol.toList := by
  unfold quantityText
  rw [String.toList_append, String.toList_append, String.toList_ofList, List.append_assoc]
  rfl

/-- The text of a quantity is clean as it is. -/
theorem clean_quantityText (n : Int) (places : Nat) {u : MeasureUnit}
    (hu : u ∈ Registry.builtin.units) :
    clean (quantityText n places u.symbol) = numeral n places ++ ' ' :: u.symbol.toList := by
  obtain ⟨hne, hchars⟩ := symbol_chars hu
  unfold clean
  rw [toList_quantityText, trim_eq_self, List.filter_eq_self.2]
  · intro c hc
    rw [bne_iff_ne]
    rcases List.mem_append.1 hc with hnumeral | hrest
    · exact (numeral_chars hnumeral).2
    · rcases List.mem_cons.1 hrest with rfl | hsymbol
      · decide
      · exact (hchars c hsymbol).2
  · intro c hc
    obtain ⟨d, ds, hds⟩ : ∃ d ds, numeral n places = d :: ds := by
      apply List.exists_cons_of_ne_nil
      unfold numeral fixedPoint
      split <;> simp
    rw [hds, List.cons_append, List.head?_cons, Option.mem_some_iff] at hc
    subst hc
    have hmem : d ∈ numeral n places := hds ▸ List.mem_cons_self
    exact (numeral_chars hmem).1
  · intro c hc
    rw [List.getLast?_append, List.getLast?_cons, Option.some_or, Option.mem_some_iff] at hc
    rw [List.getLast?_eq_some_getLast hne, Option.getD_some] at hc
    subst hc
    exact (hchars _ (List.getLast_mem hne)).1

/-- The text of a quantity of no more than fifteen significant digits is read as the number it
shows and the unit it was written in. -/
theorem exists_parse? {n : Int} {places : Nat} {u : MeasureUnit}
    (hu : u ∈ Registry.builtin.units) (hplaces : places ≤ 12) (hn : n.natAbs ≤ 10 ^ 40)
    (hkeeps : Keeps 15 (n : Rat)) :
    ∃ (y : Finite) (unit : String),
      parse? (quantityText n places u.symbol) = some ⟨y, some unit, classify unit⟩ ∧
        y.writtenValue = n / 10 ^ places ∧ Registry.builtin.find? unit = some u := by
  have hne := (symbol_chars hu).1
  obtain ⟨token, htoken, hfind⟩ := exists_tokenUnit? hu
  have hten : (0 : Rat) < 10 ^ places := by positivity
  have hvalue :
      (n.natAbs : Rat) * (10 : Rat) ^ (0 - (places : Int)) = |(n : Rat)| / 10 ^ places := by
    rw [zero_sub, zpow_neg, zpow_natCast, ← div_eq_mul_inv, abs_intCast]
  have hrange : n.natAbs = 0 ∨ InRange (n.natAbs * (10 : Rat) ^ (0 - (places : Int))) := by
    by_cases hzero : n = 0
    · exact Or.inl (Int.natAbs_eq_zero.2 hzero)
    · right
      have hone : (1 : Rat) ≤ |(n : Rat)| := by exact_mod_cast Int.one_le_abs hzero
      have hmost : |(n : Rat)| ≤ 10 ^ 40 := by
        rw [abs_intCast]
        exact_mod_cast hn
      have hpow : (10 : Rat) ^ places ≤ 10 ^ 12 := pow_le_pow_right₀ (by norm_num) hplaces
      have hpow1 : (1 : Rat) ≤ 10 ^ places := one_le_pow₀ (by norm_num)
      rw [hvalue]
      apply inRange_of_bounds
      · refine le_trans ?_ (div_le_div₀ (by positivity) hone hten hpow)
        norm_num
      · refine (div_le_self (abs_nonneg _) hpow1).trans (hmost.trans ?_)
        norm_num
  have hfew : Keeps 15 (n.natAbs * (10 : Rat) ^ (0 - (places : Int))) := by
    apply Keeps.mul_zpow
    rw [← abs_intCast]
    rcases abs_choice (n : Rat) with h | h
    · rwa [h]
    · rw [h]
      exact hkeeps.neg
  obtain ⟨y, hy, hwritten⟩ := exists_ofDecimal_of_keeps hrange hfew (decide (n < 0))
  refine ⟨y, String.ofList token, ?_, ?_, hfind⟩
  · have hspace : ∀ c ∈ (' ' :: u.symbol.toList).head?, c.isDigit = false ∧ c ≠ '.' := by
      rintro c ⟨⟩
      decide
    have htake := takeNumber?_numeral n places hspace
    have hliteral : (⟨n.natAbs, places⟩ : Literal).toBinary64 (decide (n < 0)) 0 = .finite y := hy
    rw [hliteral] at htake
    unfold parse?
    rw [clean_quantityText n places hu, htake]
    dsimp only
    rw [trim_cons_space, trim_symbol hu, if_neg hne, htoken]
    rfl
  · rw [hwritten, hvalue]
    by_cases h : n < 0
    · have hneg : (n : Rat) < 0 := by exact_mod_cast h
      rw [decide_eq_true h, if_pos rfl, abs_of_neg hneg]
      ring
    · have hpos : (0 : Rat) ≤ n := by exact_mod_cast not_lt.1 h
      rw [decide_eq_false h, if_neg Bool.false_ne_true, abs_of_nonneg hpos, one_mul]

end UnitLedger.Entry
