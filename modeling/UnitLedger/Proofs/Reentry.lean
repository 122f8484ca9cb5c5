import UnitLedger.Proofs.Entry
import Mathlib.Tactic.FieldSimp
import Mathlib.Tactic.Linarith
import Mathlib.Tactic.NormNum
import Mathlib.Tactic.Positivity
set_option autoImplicit false

/-! # Typing a displayed text back in

The text of a stored quantity, entered again, is stored as a quantity with the same text
(`quantity_reads_back`).  Where a base unit is no coarser than the last place shown the quantity
itself comes back (`restored_of_coarse_step`); where it is coarser the quantity may be another one,
but it is written alike (`same_count_of_fine_step`).  In both directions one rounding is undone by
the other, because a unit and a step of the places are of one size or clearly apart.
-/

namespace UnitLedger.Format

open Numeral Decimal Exact Registry Binary64 StoredQuantity

/-! ## Two roundings against each other -/

section Rounding

-- A step of the places shown is `unit` base units.  For `base` base units `scaled` steps are
-- computed and `count` are shown; `product` base units are computed from these.
variable {unit base scaled count product : Rat}

/-- What the count is worth in base units. -/
theorem abs_count_sub_le (hunit : 0 < unit)
    (hscaled : |scaled - base / unit| ≤ |base / unit| * (2 / 10 ^ 49))
    (hcount : |scaled - count| ≤ 1 / 2) :
    |count * unit - base| ≤ unit / 2 + |base| * (2 / 10 ^ 49) := by
  have hquotient := abs_mul_sub_le_of_div hunit hscaled
  have hround : |count * unit - scaled * unit| ≤ unit / 2 := by
    rw [← sub_mul, abs_mul, abs_of_pos hunit, abs_sub_comm]
    linarith [mul_le_mul_of_nonneg_right hcount hunit.le]
  have htriangle := abs_sub_le (count * unit) (scaled * unit) base
  linarith

/-- When a step is less than a base unit, the count determines the base units. -/
theorem restored_of_coarse_step (hunit : 0 < unit) (hcoarse : 100 * unit ≤ 99)
    (hbase : |base| ≤ 10 ^ 18)
    (hscaled : |scaled - base / unit| ≤ |base / unit| * (2 / 10 ^ 49))
    (hcount : |scaled - count| ≤ 1 / 2)
    (hproduct : |product - count * unit| ≤ |count * unit| * (10 : Rat) ^ (-49 : Int) / 2) :
    |product - base| < 1 / 2 := by
  have hworth := abs_count_sub_le hunit hscaled hcount
  have hsize := abs_sub_abs_le_abs_sub (count * unit) base
  have htriangle := abs_sub_le product (count * unit) base
  generalize count * unit = worth at *
  norm_num at hworth hproduct hbase ⊢
  linarith

/-- What is stored for the count of a quantity that is not too large is no larger than a word. -/
theorem abs_stored_le {stored : Rat} (hunit : 0 < unit) (hlarge : unit ≤ 10 ^ 12)
    (hbase : |base| ≤ 10 ^ 18)
    (hscaled : |scaled - base / unit| ≤ |base / unit| * (2 / 10 ^ 49))
    (hcount : |scaled - count| ≤ 1 / 2)
    (hproduct : |product - count * unit| ≤ |count * unit| * (10 : Rat) ^ (-49 : Int) / 2)
    (hstored : |product - stored| ≤ 1 / 2) :
    |stored| ≤ 2 ^ 62 := by
  have hworth := abs_count_sub_le hunit hscaled hcount
  have hsize := abs_sub_abs_le_abs_sub (count * unit) base
  have hsize' := abs_sub_abs_le_abs_sub product (count * unit)
  have hsize'' := abs_sub_abs_le_abs_sub stored product
  rw [abs_sub_comm] at hsize''
  generalize count * unit = worth at *
  norm_num at hworth hproduct hbase hlarge ⊢
  linarith

/-- When a step is more than a base unit, whatever is stored for the count is shown as the count. -/
theorem same_count_of_fine_step {stored shown : Rat} (hfine : 101 ≤ 100 * unit)
    (hbase : |base| ≤ 10 ^ 18)
    (hscaled : |scaled - base / unit| ≤ |base / unit| * (2 / 10 ^ 49))
    (hcount : |scaled - count| ≤ 1 / 2)
    (hproduct : |product - count * unit| ≤ |count * unit| * (10 : Rat) ^ (-49 : Int) / 2)
    (hstored : |product - stored| ≤ 1 / 2)
    (hshown : |shown - stored / unit| ≤ |stored / unit| * (2 / 10 ^ 49)) :
    |shown - count| < 1 / 2 := by
  have hunit : 0 < unit := by linarith
  have hless : |base / unit| ≤ 10 ^ 18 := by
    rw [abs_div, abs_of_pos hunit]
    exact (div_le_self (abs_nonneg _) (by linarith)).trans hbase
  have hsmall : |count| ≤ 10 ^ 18 + 1 := by
    have hback := abs_sub_abs_le_abs_sub count scaled
    have hsize := abs_sub_abs_le_abs_sub scaled (base / unit)
    rw [abs_sub_comm] at hback
    generalize base / unit = quotient at *
    norm_num at hscaled hless ⊢
    linarith
  -- in steps, what is stored is within half a base unit of the count
  have hsteps : |stored / unit - count| ≤ 1 / 2 * (100 / 101) + |count| / 10 ^ 49 := by
    have hdiff : |stored - count * unit| ≤ 1 / 2 + |count| * unit / 10 ^ 49 := by
      have htriangle := abs_sub_le stored product (count * unit)
      rw [abs_sub_comm stored product] at htriangle
      rw [abs_mul, abs_of_pos hunit] at hproduct
      norm_num at hproduct ⊢
      linarith [mul_nonneg (abs_nonneg count) hunit.le]
    have heq : stored / unit - count = (stored - count * unit) / unit := by field_simp
    rw [heq, abs_div, abs_of_pos hunit, div_le_iff₀ hunit]
    refine hdiff.trans ?_
    rw [add_mul]
    have hhalf : 1 / 2 ≤ 1 / 2 * (100 / 101) * unit := by linarith
    have hrest : |count| * unit / 10 ^ 49 = |count| / 10 ^ 49 * unit := by ring
    linarith
  have htriangle := abs_sub_le shown (stored / unit) count
  have hsize := abs_sub_abs_le_abs_sub (stored / unit) count
  generalize stored / unit = steps at *
  norm_num at hsteps hshown hsmall ⊢
  linarith

end Rounding

/-! ## The text and the number in it -/

/-- The number of a text stands before the first space. -/
def numberPart (text : String) : List Char := text.toList.takeWhile (· != ' ')

theorem numberPart_quantityText (n : Int) (places : Nat) (symbol : String) :
    numberPart (quantityText n places symbol) = numeral n places := by
  unfold numberPart
  rw [Entry.toList_quantityText, List.takeWhile_append_of_pos,
    List.takeWhile_cons_of_neg (by decide), List.append_nil]
  intro c hc
  rw [bne_iff_ne]
  rintro rfl
  exact absurd (Entry.numeral_chars hc).1 (by decide)

/-- The digits that are shown are those of the count. -/
theorem keeps_of_significantDigits {n : Int} {places p : Nat}
    (h : significantDigits (numeral n places) ≤ p) : Keeps p (n : Rat) := by
  have hsame : significantDigits (numeral n places) =
      significantDigits (fixedPoint n.natAbs places) := by
    unfold numeral
    split
    · unfold significantDigits
      rw [List.filter_cons_of_neg (by decide)]
    · rfl
  obtain ⟨core, t, hn, hcore⟩ := exists_of_significantDigits n.natAbs places
  have hlt : core < 10 ^ p :=
    hcore.trans_le (Nat.pow_le_pow_right (by decide) (hsame.symm.trans_le h))
  have hkeeps : Keeps p (core * (10 : Rat) ^ (t : Int)) := by
    rw [← Int.cast_natCast (n := core)]
    exact keeps_of_digitCount_le ((digitCount_le_iff _ _).2 (by rwa [Int.natAbs_natCast])) t
  have habs : |(n : Rat)| = core * (10 : Rat) ^ (t : Int) := by
    rw [zpow_natCast, abs_intCast, hn]
    push_cast
    ring
  rw [← habs] at hkeeps
  rcases abs_choice (n : Rat) with hpos | hneg
  · rwa [hpos] at hkeeps
  · have := hkeeps.neg
    rwa [hneg, neg_neg] at this

/-! ## Storing the number again -/

variable {q : StoredQuantity} {u : MeasureUnit} {o : DisplayOptions}

/-- A number read from a text is stored, and the quantity is written as the text. -/
theorem exists_restored (hu : u ∈ builtin.units) (hd : u.dimension = q.dimension)
    (hq : |q.baseValue.toInt| ≤ 10 ^ 18) (ho : o.quantityDecimals ≤ 12) {scaled : Rat}
    (hscaled : |scaled - q.baseValue.toInt / stepSize u (places q.dimension o)| ≤
      |q.baseValue.toInt / stepSize u (places q.dimension o)| * (2 / 10 ^ 49))
    (hexact : Keeps workingPrecision (q.baseValue.toInt / stepSize u (places q.dimension o)) →
      scaled = q.baseValue.toInt / stepSize u (places q.dimension o))
    (htext : quantity q u.symbol o =
      .ok (quantityText (halfAway scaled) (places q.dimension o) u.symbol))
    {symbol : String} (hfind : builtin.find? symbol = some u) {y : Finite}
    (hy : y.writtenValue = halfAway scaled / 10 ^ places q.dimension o) :
    ∃ q', ofValue q.dimension (.finite y) symbol = .ok q' ∧
      quantity q' u.symbol o =
        .ok (quantityText (halfAway scaled) (places q.dimension o) u.symbol) := by
  have hstores := stores_mul hfind hd y
  have hproduct := abs_product_sub_le u y
  rw [hy, div_pow_mul_factor] at hproduct
  have hbase : |(q.baseValue.toInt : Rat)| ≤ 10 ^ 18 := by exact_mod_cast hq
  have hcount := abs_sub_halfAway_le scaled
  have hstored := abs_sub_halfAway_le ((ofFinite y).mul u.factor).toRat
  have hpos := stepSize_pos hu (places q.dimension o)
  have hsame : halfAway ((ofFinite y).mul u.factor).toRat = q.baseValue.toInt →
      ∃ q', ofValue q.dimension (.finite y) symbol = .ok q' ∧
        quantity q' u.symbol o =
          .ok (quantityText (halfAway scaled) (places q.dimension o) u.symbol) := by
    intro heq
    rw [heq] at hstores
    exact ⟨q, hstores.eq_ok, htext⟩
  rcases stepSize_cases hu (places_le ho q.dimension) with hone | hcoarse | hfine
  · -- a step is a base unit: nothing is rounded on either way
    rw [hone, div_one] at hexact
    rw [hone, hexact (keeps_baseValue q), halfAway_intCast, mul_one] at hproduct
    apply hsame
    apply halfAway_eq_of_abs_sub_lt
    norm_num at hproduct hbase ⊢
    linarith
  · apply hsame
    apply halfAway_eq_of_abs_sub_lt
    exact restored_of_coarse_step hpos hcoarse hbase hscaled hcount hproduct
  · have hrange : -2 ^ 63 ≤ halfAway ((ofFinite y).mul u.factor).toRat ∧
        halfAway ((ofFinite y).mul u.factor).toRat ≤ 2 ^ 63 - 1 := by
      have habs := abs_stored_le hpos (stepSize_le hu _) hbase hscaled hcount hproduct hstored
      have hint : |halfAway ((ofFinite y).mul u.factor).toRat| ≤ 2 ^ 62 := by exact_mod_cast habs
      have := abs_le.1 hint
      omega
    rw [Stores, if_pos hrange] at hstores
    obtain ⟨w, hw, hok⟩ := hstores
    obtain ⟨shown, hshown, hnear, -⟩ := exists_quantity (q := ⟨w, q.dimension⟩) hu hd ho
    dsimp only at hshown hnear
    rw [hw] at hnear
    refine ⟨_, hok, ?_⟩
    rw [hshown, halfAway_eq_of_abs_sub_lt
      (same_count_of_fine_step hfine hbase hscaled hcount hproduct hstored hnear)]

/-- Displayed text can be typed back and is stable.  The text of a stored quantity in a unit of its
dimension, whose number has at most fifteen significant digits, is read as an entry that names the
unit again; stored in a field of the dimension, whatever its default unit is, the entry is a
quantity of the same text. -/
theorem quantity_reads_back (hu : u ∈ builtin.units) (hd : u.dimension = q.dimension)
    (hq : |q.baseValue.toInt| ≤ 10 ^ 18) (ho : o.quantityDecimals ≤ 12) :
    ∃ text, quantity q u.symbol o = .ok text ∧
      (significantDigits (numberPart text) ≤ 15 →
        ∃ (e : Entry) (unit : String), Entry.parse? text = some e ∧ e.unit = some unit ∧
          builtin.find? unit = some u ∧
          ∀ defaultUnit : String, ∃ q', e.store q.dimension defaultUnit = .ok q' ∧
            quantity q' u.symbol o = .ok text) := by
  obtain ⟨scaled, htext, hnear, hexact⟩ := exists_quantity hu hd ho
  refine ⟨_, htext, fun hdigits => ?_⟩
  rw [numberPart_quantityText] at hdigits
  have hcount : (halfAway scaled).natAbs ≤ 10 ^ 40 := by
    have hlarge := abs_steps_le hu q (places_le ho q.dimension)
    have hround := abs_sub_halfAway_le scaled
    have hsize := abs_sub_abs_le_abs_sub (halfAway scaled : Rat) scaled
    rw [abs_sub_comm] at hsize
    generalize (q.baseValue.toInt : Rat) / stepSize u (places q.dimension o) = steps at *
    have hsize' := abs_sub_abs_le_abs_sub scaled steps
    have habs : |(halfAway scaled : Rat)| ≤ 10 ^ 40 := by
      norm_num at hnear hlarge ⊢
      linarith
    rw [abs_intCast] at habs
    exact_mod_cast habs
  obtain ⟨y, unit, hparse, hvalue, hfind⟩ :=
    Entry.exists_parse? hu (places_le ho q.dimension) hcount (keeps_of_significantDigits hdigits)
  refine ⟨_, unit, hparse, rfl, hfind, fun defaultUnit => ?_⟩
  exact exists_restored hu hd hq ho hnear hexact htext hfind hvalue

/-- 611 millimetres are shown in feet as `2.00 ft`.  What comes back is stored as 610 millimetres,
and is shown alike. -/
theorem quantity_reads_back_feet :
    |(⟨611, .length⟩ : StoredQuantity).baseValue.toInt| ≤ 10 ^ 18 ∧
      DisplayOptions.standard.quantityDecimals ≤ 12 ∧
      quantity ⟨611, .length⟩ "ft" DisplayOptions.standard = .ok "2.00 ft" ∧
      significantDigits (numberPart "2.00 ft") ≤ 15 ∧
      ∃ (e : Entry) (unit : String), Entry.parse? "2.00 ft" = some e ∧ e.unit = some unit ∧
        builtin.find? unit = some ⟨"ft", "foot", .length, .imperial, ⟨3048, -1, 50, by decide⟩⟩ ∧
        ∀ defaultUnit : String, ∃ q', e.store .length defaultUnit = .ok q' ∧
          quantity q' "ft" DisplayOptions.standard = .ok "2.00 ft" := by
  have hq : |(⟨611, .length⟩ : StoredQuantity).baseValue.toInt| ≤ 10 ^ 18 := by decide
  have ho : DisplayOptions.standard.quantityDecimals ≤ 12 := by decide
  have hshown : quantity ⟨611, .length⟩ "ft" DisplayOptions.standard = .ok "2.00 ft" := by
    decide +kernel
  have hdigits : significantDigits (numberPart "2.00 ft") ≤ 15 := by decide +kernel
  obtain ⟨text, htext, hback⟩ := quantity_reads_back
    (u := ⟨"ft", "foot", .length, .imperial, ⟨3048, -1, 50, by decide⟩⟩) (q := ⟨611, .length⟩)
    (by decide +kernel) rfl hq ho
  obtain rfl : "2.00 ft" = text := Except.ok.inj (hshown.symm.trans htext)
  exact ⟨hq, ho, hshown, hdigits, hback hdigits⟩

end UnitLedger.Format
