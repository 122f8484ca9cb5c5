import UnitLedger.Numeral
import Mathlib.Data.List.Basic
set_option autoImplicit false

/-! # Fixed-point numerals

The digits of a text with a fixed number of fraction digits spell the natural it was made from
(`ofDigitChars_fixedDigits`), and no other digits without zeros in front spell it (`eq_toDigits`).
Those from the first that is not zero to the last one are significant, and their number bounds the
natural but for zeros at its end (`exists_of_significantDigits`).
-/

namespace UnitLedger.Numeral

/-! ## Digits -/

theorem ofDigitChars_lt_pow {cs : List Char} (h : ∀ c ∈ cs, c.isDigit = true) :
    Nat.ofDigitChars 10 cs 0 < 10 ^ cs.length := by
  induction cs with
  | nil => simp
  | cons c cs ih =>
    have hc : c.toNat - '0'.toNat ≤ 9 := by
      have hdigit := h c List.mem_cons_self
      rw [Char.isDigit_iff_toNat] at hdigit
      have hzero : '0'.toNat = 48 := rfl
      have hnine : '9'.toNat = 57 := rfl
      omega
    have hcs := ih fun d hd => h d (List.mem_cons_of_mem c hd)
    rw [Nat.ofDigitChars_cons, Nat.ofDigitChars_eq_ofDigitChars_zero, List.length_cons,
      Nat.pow_succ, Nat.mul_zero, Nat.zero_add]
    have := Nat.mul_le_mul_left (10 ^ cs.length) hc
    omega

theorem isDigit_of_mem_toDigits {n : Nat} {c : Char} (hc : c ∈ Nat.toDigits 10 n) :
    c.isDigit = true :=
  Nat.isDigit_of_mem_toDigits (by decide) (by decide) hc

theorem ne_of_isDigit {c d : Char} (hc : c.isDigit = true) (hd : d.isDigit = false) : c ≠ d := by
  rintro rfl
  rw [hd] at hc
  exact Bool.false_ne_true hc

/-- Digits are taken off a text that goes on otherwise. -/
theorem takeWhile_isDigit_append {ds : List Char} (h : ∀ c ∈ ds, c.isDigit = true)
    {rest : List Char} (hrest : ∀ c ∈ rest.head?, c.isDigit = false) :
    (ds ++ rest).takeWhile Char.isDigit = ds ∧ (ds ++ rest).dropWhile Char.isDigit = rest := by
  have hstop : rest.takeWhile Char.isDigit = [] ∧ rest.dropWhile Char.isDigit = rest := by
    cases rest with
    | nil => exact ⟨rfl, rfl⟩
    | cons c cs =>
      have hc : ¬ c.isDigit = true := by simp [hrest c rfl]
      exact ⟨List.takeWhile_cons_of_neg hc, List.dropWhile_cons_of_neg hc⟩
  rw [List.takeWhile_append_of_pos h, List.dropWhile_append_of_pos h, hstop.1, hstop.2,
    List.append_nil]
  exact ⟨rfl, rfl⟩

/-- Only the numeral of zero starts with a zero. -/
theorem eq_zero_of_head?_toDigits {n : Nat} (h : (Nat.toDigits 10 n).head? = some '0') : n = 0 := by
  induction n using Nat.strongRecOn with
  | _ n ih =>
    by_cases hlt : n < 10
    · rw [Nat.toDigits_of_lt_base hlt, List.head?_cons, Option.some_inj] at h
      have hvalue := Nat.toNat_digitChar_of_lt_ten hlt
      rw [h] at hvalue
      have hzero : '0'.toNat = 48 := rfl
      omega
    · have hfront : (Nat.toDigits 10 (n / 10)).head? = some '0' := by
        rwa [Nat.toDigits_of_base_le (by decide) (by omega),
          List.head?_append_of_ne_nil _ Nat.toDigits_ne_nil] at h
      have := ih (n / 10) (by omega) hfront
      omega

/-- Digits are known by their number and their value. -/
theorem eq_of_ofDigitChars_eq {cs ds : List Char} (hcs : ∀ c ∈ cs, c.isDigit = true)
    (hds : ∀ d ∈ ds, d.isDigit = true) (hlength : cs.length = ds.length)
    (h : Nat.ofDigitChars 10 cs 0 = Nat.ofDigitChars 10 ds 0) : cs = ds := by
  induction cs generalizing ds with
  | nil => exact (List.eq_nil_of_length_eq_zero hlength.symm).symm
  | cons c cs ih =>
    obtain ⟨d, ds, rfl⟩ := List.exists_cons_of_length_eq_add_one hlength.symm
    rw [List.forall_mem_cons] at hcs hds
    have hlen : cs.length = ds.length := Nat.succ.inj hlength
    have hcsValue := ofDigitChars_lt_pow hcs.2
    have hdsValue := ofDigitChars_lt_pow hds.2
    rw [Nat.ofDigitChars_cons, Nat.ofDigitChars_cons, Nat.ofDigitChars_eq_ofDigitChars_zero,
      Nat.ofDigitChars_eq_ofDigitChars_zero (l := ds), Nat.mul_zero, Nat.zero_add, Nat.zero_add,
      hlen] at h
    rw [hlen] at hcsValue
    -- the other digits are less than a unit of the first one
    have hfirst := congrArg (· / 10 ^ ds.length) h
    have hothers := congrArg (· % 10 ^ ds.length) h
    simp only [Nat.mul_add_div (Nat.pow_pos (Nat.succ_pos 9)), Nat.div_eq_of_lt hcsValue,
      Nat.div_eq_of_lt hdsValue, Nat.mul_add_mod, Nat.mod_eq_of_lt hcsValue,
      Nat.mod_eq_of_lt hdsValue, Nat.add_zero] at hfirst hothers
    have hc := Char.isDigit_iff_toNat.1 hcs.1
    have hd := Char.isDigit_iff_toNat.1 hds.1
    have hhead : c = d := by
      rw [← Char.toNat_inj]
      omega
    rw [hhead, ih hcs.2 hds.2 hlen hothers]

theorem ofDigitChars_eq_zero_iff {cs : List Char} (h : ∀ c ∈ cs, c.isDigit = true) :
    Nat.ofDigitChars 10 cs 0 = 0 ↔ ∀ c ∈ cs, c = '0' := by
  constructor
  · intro hzero c hc
    have hzeros : cs = List.replicate cs.length '0' := by
      refine eq_of_ofDigitChars_eq h (fun d hd => ?_) List.length_replicate.symm ?_
      · rw [List.eq_of_mem_replicate hd]
        rfl
      · rw [hzero, Nat.ofDigitChars_replicate_zero, Nat.mul_zero]
    rw [hzeros] at hc
    exact List.eq_of_mem_replicate hc
  · intro hall
    rw [List.eq_replicate_of_mem hall, Nat.ofDigitChars_replicate_zero, Nat.mul_zero]

/-- A natural is written in one way without zeros in front. -/
theorem eq_toDigits {cs : List Char} (hdigits : ∀ c ∈ cs, c.isDigit = true) (hne : cs ≠ [])
    (hzero : cs.head? = some '0' → cs = ['0']) :
    cs = Nat.toDigits 10 (Nat.ofDigitChars 10 cs 0) := by
  apply eq_of_ofDigitChars_eq hdigits (fun c hc => isDigit_of_mem_toDigits hc) _
    Nat.ofDigitChars_ten_toDigits.symm
  obtain ⟨c, cs, rfl⟩ := List.exists_cons_of_ne_nil hne
  by_cases hc : c = '0'
  · subst hc
    rw [hzero rfl]
    rfl
  · have hmost := ofDigitChars_lt_pow hdigits
    have hleast : 10 ^ cs.length ≤ Nat.ofDigitChars 10 (c :: cs) 0 := by
      have hdigit := Char.isDigit_iff_toNat.1 (hdigits c List.mem_cons_self)
      have hne : c.toNat ≠ 48 := fun h => hc (Char.toNat_inj.1 h)
      rw [Nat.ofDigitChars_cons, Nat.ofDigitChars_eq_ofDigitChars_zero, Nat.mul_zero, Nat.zero_add]
      have hone : 1 ≤ c.toNat - '0'.toNat := by
        have : '0'.toNat = 48 := rfl
        omega
      have := Nat.mul_le_mul_left (10 ^ cs.length) hone
      omega
    have hle := Nat.length_toDigits_le_iff (b := 10) (k := cs.length + 1)
      (n := Nat.ofDigitChars 10 (c :: cs) 0) (by decide) (Nat.succ_pos _)
    rw [List.length_cons] at hmost ⊢
    apply Nat.le_antisymm _ (hle.2 hmost)
    rcases Nat.eq_zero_or_pos cs.length with h | h
    · rw [h]
      exact Nat.length_toDigits_pos
    · rw [Nat.succ_le_iff, ← Nat.not_le, Nat.length_toDigits_le_iff (by decide) h]
      omega

theorem lt_pow_of_length_le {n k : Nat} (h : (Nat.toDigits 10 n).length ≤ k) : n < 10 ^ k :=
  (Nat.length_toDigits_le_iff (by decide) (Nat.lt_of_lt_of_le Nat.length_toDigits_pos h)).1 h

/-- Zeros behind a numeral are a power of ten. -/
theorem toDigits_mul_pow {n : Nat} (h : n ≠ 0) (k : Nat) :
    Nat.toDigits 10 (n * 10 ^ k) = Nat.toDigits 10 n ++ List.replicate k '0' := by
  have hvalue : Nat.ofDigitChars 10 (Nat.toDigits 10 n ++ List.replicate k '0') 0 = n * 10 ^ k := by
    rw [Nat.ofDigitChars_append, Nat.ofDigitChars_ten_toDigits, Nat.ofDigitChars_replicate_zero,
      Nat.mul_comm]
  rw [← hvalue, ← eq_toDigits]
  · intro c hc
    rcases List.mem_append.1 hc with hdigit | hzero
    · exact isDigit_of_mem_toDigits hdigit
    · rw [List.eq_of_mem_replicate hzero]
      rfl
  · exact List.append_ne_nil_of_left_ne_nil Nat.toDigits_ne_nil _
  · rw [List.head?_append_of_ne_nil _ Nat.toDigits_ne_nil]
    exact fun hhead => absurd (eq_zero_of_head?_toDigits hhead) h

/-- Digits dropped off the end of a numeral are divided off. -/
theorem toDigits_div_pow {n k : Nat} (h : k < (Nat.toDigits 10 n).length) :
    Nat.toDigits 10 (n / 10 ^ k) =
      (Nat.toDigits 10 n).take ((Nat.toDigits 10 n).length - k) := by
  obtain ⟨front, back, hsplit, hback⟩ : ∃ front back : List Char,
      Nat.toDigits 10 n = front ++ back ∧ back.length = k := by
    refine ⟨_, _, (List.take_append_drop ((Nat.toDigits 10 n).length - k) _).symm, ?_⟩
    rw [List.length_drop]
    omega
  have hdigits : ∀ c ∈ front ++ back, c.isDigit = true := by
    rw [← hsplit]
    exact fun c hc => isDigit_of_mem_toDigits hc
  have hlt := ofDigitChars_lt_pow fun c hc => hdigits c (List.mem_append_right front hc)
  have hvalue := Nat.ofDigitChars_ten_toDigits (n := n)
  rw [hsplit, Nat.ofDigitChars_append, Nat.ofDigitChars_eq_ofDigitChars_zero, hback] at hvalue
  rw [hback] at hlt
  rw [hsplit, List.length_append, hback] at h
  have hne : front ≠ [] := List.ne_nil_of_length_pos (by omega)
  have hquotient : n / 10 ^ k = Nat.ofDigitChars 10 front 0 := by
    rw [← hvalue, Nat.mul_add_div (Nat.pow_pos (Nat.succ_pos 9)), Nat.div_eq_of_lt hlt, Nat.add_zero]
  rw [hsplit, List.length_append, hback, Nat.add_sub_cancel, List.take_left, hquotient,
    ← eq_toDigits (fun c hc => hdigits c (List.mem_append_left back hc)) hne]
  intro hzero
  -- the numeral of zero has no digits to drop
  have hhead : (Nat.toDigits 10 n).head? = some '0' := by
    rw [hsplit, List.head?_append_of_ne_nil _ hne, hzero]
  rw [eq_zero_of_head?_toDigits hhead, Nat.toDigits_zero] at hsplit
  obtain ⟨c, front, rfl⟩ := List.exists_cons_of_ne_nil hne
  rw [List.cons_append, List.cons.injEq, eq_comm (a := []), List.append_eq_nil_iff] at hsplit
  rw [← hsplit.1, hsplit.2.1]

theorem isDigit_of_mem_padded {width n : Nat} {c : Char} (h : c ∈ padded width n) :
    c.isDigit = true := by
  unfold padded at h
  rcases List.mem_append.1 h with hzero | hdigit
  · rw [List.eq_of_mem_replicate hzero]
    rfl
  · exact isDigit_of_mem_toDigits hdigit

theorem length_padded {width n : Nat} (hwidth : 0 < width) (h : n < 10 ^ width) :
    (padded width n).length = width := by
  have hle := (Nat.length_toDigits_le_iff (b := 10) (by decide) hwidth).2 h
  unfold padded
  rw [List.length_append, List.length_replicate]
  omega

theorem ofDigitChars_padded (width n : Nat) : Nat.ofDigitChars 10 (padded width n) 0 = n := by
  unfold padded
  rw [Nat.ofDigitChars_append, Nat.ofDigitChars_replicate_zero, Nat.mul_zero,
    Nat.ofDigitChars_ten_toDigits]

/-- There are as many digits behind the point as there are places. -/
theorem length_fraction (n places : Nat) :
    (if places = 0 then [] else padded places (n % 10 ^ places)).length = places := by
  split
  · next h => rw [h, List.length_nil]
  · next h =>
    exact length_padded (Nat.pos_of_ne_zero h) (Nat.mod_lt _ (Nat.pow_pos (by decide)))

/-- The digits of a fixed-point text without the point. -/
def fixedDigits (scaled places : Nat) : List Char :=
  Nat.toDigits 10 (scaled / 10 ^ places) ++
    if places = 0 then [] else padded places (scaled % 10 ^ places)

theorem ofDigitChars_fixedDigits (scaled places : Nat) :
    Nat.ofDigitChars 10 (fixedDigits scaled places) 0 = scaled := by
  unfold fixedDigits
  by_cases h : places = 0
  · rw [if_pos h, List.append_nil, Nat.ofDigitChars_ten_toDigits, h, Nat.pow_zero, Nat.div_one]
  · have hlt : scaled % 10 ^ places < 10 ^ places := Nat.mod_lt _ (Nat.pow_pos (by decide))
    rw [if_neg h, Nat.ofDigitChars_append, Nat.ofDigitChars_ten_toDigits,
      Nat.ofDigitChars_eq_ofDigitChars_zero, ofDigitChars_padded,
      length_padded (Nat.pos_of_ne_zero h) hlt]
    exact Nat.div_add_mod scaled (10 ^ places)

theorem isDigit_of_mem_fixedDigits {scaled places : Nat} {c : Char}
    (h : c ∈ fixedDigits scaled places) : c.isDigit = true := by
  rcases List.mem_append.1 h with hwhole | hfraction
  · exact isDigit_of_mem_toDigits hwhole
  · split at hfraction
    · cases hfraction
    · exact isDigit_of_mem_padded hfraction

theorem length_fixedDigits (scaled places : Nat) :
    (fixedDigits scaled places).length =
      (Nat.toDigits 10 (scaled / 10 ^ places)).length + places := by
  rw [fixedDigits, List.length_append, length_fraction]

/-- The digits of a fixed-point text are those of the numeral, with zeros in front where it has too
few. -/
theorem leftpad_toDigits (scaled places : Nat) :
    (Nat.toDigits 10 scaled).leftpad (places + 1) '0' = fixedDigits scaled places := by
  have hdigits : ∀ c ∈ (Nat.toDigits 10 scaled).leftpad (places + 1) '0', c.isDigit = true := by
    intro c hc
    rcases List.mem_append.1 hc with hzero | hdigit
    · rw [List.eq_of_mem_replicate hzero]
      rfl
    · exact isDigit_of_mem_toDigits hdigit
  refine eq_of_ofDigitChars_eq hdigits (fun c hc => isDigit_of_mem_fixedDigits hc) ?_ ?_
  · rw [List.length_leftpad, length_fixedDigits]
    rcases Nat.lt_or_ge places (Nat.toDigits 10 scaled).length with hlong | hshort
    · rw [toDigits_div_pow hlong, List.length_take]
      omega
    · have hzero : scaled / 10 ^ places = 0 := Nat.div_eq_of_lt (lt_pow_of_length_le hshort)
      rw [hzero, Nat.toDigits_zero, List.length_singleton]
      omega
  · rw [ofDigitChars_fixedDigits, List.leftpad, Nat.ofDigitChars_append,
      Nat.ofDigitChars_replicate_zero, Nat.mul_zero, Nat.ofDigitChars_ten_toDigits]

theorem splitAt_fixedDigits (scaled places : Nat) :
    (fixedDigits scaled places).splitAt ((fixedDigits scaled places).length - places) =
      (Nat.toDigits 10 (scaled / 10 ^ places),
        if places = 0 then [] else padded places (scaled % 10 ^ places)) := by
  rw [length_fixedDigits, Nat.add_sub_cancel, List.splitAt_eq, fixedDigits, List.take_left,
    List.drop_left]

/-- Digits other than zero are shown exactly of naturals other than zero. -/
theorem any_fixedDigits (scaled places : Nat) :
    (fixedDigits scaled places).any (· != '0') = true ↔ scaled ≠ 0 := by
  have hzero := ofDigitChars_eq_zero_iff
    fun c (hc : c ∈ fixedDigits scaled places) => isDigit_of_mem_fixedDigits hc
  rw [ofDigitChars_fixedDigits] at hzero
  rw [ne_eq, hzero, List.any_eq_true]
  simp

theorem filter_isDigit_fixedPoint (scaled places : Nat) :
    (fixedPoint scaled places).filter Char.isDigit = fixedDigits scaled places := by
  have hwhole : (Nat.toDigits 10 (scaled / 10 ^ places)).filter Char.isDigit =
      Nat.toDigits 10 (scaled / 10 ^ places) :=
    List.filter_eq_self.2 fun c hc => isDigit_of_mem_toDigits hc
  have hfraction : (padded places (scaled % 10 ^ places)).filter Char.isDigit =
      padded places (scaled % 10 ^ places) :=
    List.filter_eq_self.2 fun c hc => isDigit_of_mem_padded hc
  unfold fixedPoint fixedDigits
  rw [List.filter_append, hwhole]
  split
  · rfl
  · rw [List.filter_cons_of_neg (by decide), hfraction]

/-! ## Significant digits -/

/-- The number of digits of a numeral from the first to the last that is not zero. -/
def significantDigits (cs : List Char) : Nat :=
  (((cs.filter Char.isDigit).dropWhile (· == '0')).reverse.dropWhile (· == '0')).length

theorem ofDigitChars_dropWhile_zero (cs : List Char) :
    Nat.ofDigitChars 10 (cs.dropWhile (· == '0')) 0 = Nat.ofDigitChars 10 cs 0 := by
  induction cs with
  | nil => rfl
  | cons c cs ih =>
    by_cases hc : c = '0'
    · rw [List.dropWhile_cons_of_pos (by simp [hc]), ih, hc, Nat.ofDigitChars_cons]
      rfl
    · rw [List.dropWhile_cons_of_neg (by simp [hc])]

/-- Zeros at the end are a power of ten. -/
theorem exists_reverse_dropWhile_zero (cs : List Char) :
    ∃ t, cs = (cs.reverse.dropWhile (· == '0')).reverse ++ List.replicate t '0' := by
  refine ⟨(cs.reverse.takeWhile (· == '0')).length, ?_⟩
  have hzeros : cs.reverse.takeWhile (· == '0') =
      List.replicate (cs.reverse.takeWhile (· == '0')).length '0' := by
    rw [List.eq_replicate_iff]
    refine ⟨rfl, fun c hc => ?_⟩
    simpa using List.all_eq_true.1 List.all_takeWhile c hc
  have hsplit := List.takeWhile_append_dropWhile (p := (· == '0')) (l := cs.reverse)
  rw [hzeros] at hsplit
  conv => lhs; rw [← List.reverse_reverse cs, ← hsplit]
  rw [List.reverse_append, List.reverse_replicate]

/-- The significant digits of a fixed-point text make up the natural, but for zeros. -/
theorem exists_of_significantDigits (scaled places : Nat) :
    ∃ core t, scaled = core * 10 ^ t ∧
      core < 10 ^ significantDigits (fixedPoint scaled places) := by
  unfold significantDigits
  rw [filter_isDigit_fixedPoint]
  have hdigits : ∀ c ∈ fixedDigits scaled places, c.isDigit = true :=
    fun c hc => isDigit_of_mem_fixedDigits hc
  have hvalue := ofDigitChars_dropWhile_zero (fixedDigits scaled places)
  rw [ofDigitChars_fixedDigits] at hvalue
  have hdropped : ∀ c ∈ (fixedDigits scaled places).dropWhile (· == '0'), c.isDigit = true :=
    fun c hc => hdigits c (List.dropWhile_subset _ hc)
  generalize (fixedDigits scaled places).dropWhile (· == '0') = ds at hvalue hdropped
  obtain ⟨t, ht⟩ := exists_reverse_dropWhile_zero ds
  refine ⟨Nat.ofDigitChars 10 (ds.reverse.dropWhile (· == '0')).reverse 0, t, ?_, ?_⟩
  · conv => lhs; rw [← hvalue, ht]
    rw [Nat.ofDigitChars_append, Nat.ofDigitChars_replicate_zero, Nat.mul_comm]
  · rw [← List.length_reverse]
    apply ofDigitChars_lt_pow
    intro c hc
    exact hdropped c (List.mem_reverse.1 (List.dropWhile_subset _ (List.mem_reverse.1 hc)))

end UnitLedger.Numeral
