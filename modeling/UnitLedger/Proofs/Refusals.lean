import UnitLedger.Proofs.Format
import UnitLedger.Proofs.Price
import UnitLedger.Proofs.Quantity.Conversion
import UnitLedger.Proofs.Quantity.Count
set_option autoImplicit false

/-! # What requests are refused for

Every request about units is refused for one of three causes, and for each of them in one case only
(`refusals`).  Entering looks a unit up and calls a unit of another dimension unknown; showing tells
the two apart.  Besides the units only the amount can be at fault, when it is not finite, not
storable, or beyond the doubles after a conversion; nothing goes wrong inside the arithmetic.
-/

namespace UnitLedger

open Decimal Exact Registry Binary64

/-- Why a request is refused, if it is. -/
def refusal? {α : Type} : Except UnitError α → Option UnitError
  | .ok _ => none
  | .error e => some e

/-- The code that a request is refused with, if it is. -/
def refusalCode? {α : Type} (r : Except UnitError α) : Option String :=
  (refusal? r).map UnitError.code

/-- What is wrong with a symbol where a unit of the dimension is wanted. -/
def mismatch? (d : Dimension) (symbol : String) : Option UnitError :=
  match builtin.dimensionOf? symbol with
  | none => some (.unknownUnit d.name symbol)
  | some found => if found = d then none else some (.dimensionMismatch d.name found.name symbol)

/-! ## Exact amounts -/

/-- The number that is written for a double, if it is finite. -/
def written? : Binary64 → Option Rat
  | .finite x => some x.writtenValue
  | _ => none

/-- The factor that the tables define for the unit that a symbol names. -/
def factorOf? (symbol : String) : Option Rat :=
  (builtin.find? symbol).bind fun u => exactFactor? u.symbol

/-- The exact number of base units in a value of a unit. -/
def baseAmount? (value : Binary64) (symbol : String) : Option Rat := do
  let x ← written? value
  let f ← factorOf? symbol
  return x * f

/-- The exact value in another unit. -/
def convertedAmount? (value : Binary64) (source target : String) : Option Rat := do
  let x ← written? value
  let a ← factorOf? source
  let b ← factorOf? target
  return x * a / b

/-! ## Units -/

variable {d : Dimension} {symbol : String}

/-- A symbol names a unit of the dimension, and then it has an exact factor, or both ways to look
it up refuse it. -/
theorem unit_cases (d : Dimension) (symbol : String) :
    (builtin.dimensionOf? symbol = some d ∧ mismatch? d symbol = none ∧
      ∃ u f, builtin.lookup d symbol = .ok u ∧ exactFactor? u.symbol = some f ∧
        factorOf? symbol = some f) ∨
    (builtin.dimensionOf? symbol ≠ some d ∧
      builtin.lookup d symbol = .error (.unknownUnit d.name symbol) ∧
      ∃ e, mismatch? d symbol = some e ∧ builtin.resolveFor d symbol = .error e) := by
  unfold mismatch? factorOf? Registry.dimensionOf? Registry.lookup Registry.resolveFor
  cases hfind : builtin.find? symbol with
  | none => exact Or.inr ⟨nofun, rfl, _, rfl, rfl⟩
  | some u =>
    by_cases hd : u.dimension = d
    · obtain ⟨f, hf⟩ := Option.isSome_iff_exists.1 (isSome_exactFactor (mem_units_of_find? hfind))
      left
      simp [hd, hf]
    · right
      simp [hd]

theorem refusal?_bind_error {α β : Type} {r : Except UnitError α} {e : UnitError}
    (h : r = .error e) (f : α → Except UnitError β) : refusal? (r >>= f) = some e := by
  rw [h]
  rfl

theorem refusalCode?_bind_error {α β : Type} {r : Except UnitError α} {e : UnitError}
    (h : r = .error e) (f : α → Except UnitError β) : refusalCode? (r >>= f) = some e.code := by
  rw [refusalCode?, refusal?_bind_error h]
  rfl

/-! ## Entering -/

/-- A price is refused for its unit or for not being finite. -/
theorem refusalCode?_ofPrice (d : Dimension) (price : Binary64) (symbol : String) :
    refusalCode? (UnitPrice.ofPrice d price symbol) =
      if builtin.dimensionOf? symbol = some d then
        if price.isFinite = true then none else some "INVALID_QUANTITY"
      else some "UNKNOWN_UNIT" := by
  rcases unit_cases d symbol with ⟨hunit, -, u, f, hu, -⟩ | ⟨hunit, hlookup, -⟩
  · have hprice := UnitPrice.ofPrice_of_lookup hu price
    rw [if_pos hunit]
    split at hprice
    · next h =>
      obtain ⟨y, hy⟩ := hprice
      rw [if_pos h, hy]
      rfl
    · next h =>
      obtain ⟨detail, hdetail⟩ := hprice
      rw [if_neg h, hdetail]
      rfl
  · rw [if_neg hunit]
    exact refusalCode?_bind_error hlookup _

/-- A value is refused for its unit, for not being finite, or when no word holds its count. -/
theorem refusalCode?_ofValue (d : Dimension) (value : Binary64) (symbol : String) :
    refusalCode? (StoredQuantity.ofValue d value symbol) =
      if builtin.dimensionOf? symbol = some d then
        if (baseAmount? value symbol).any fun r => StoredQuantity.IsStorable (halfAway r) then none
        else some "INVALID_QUANTITY"
      else some "UNKNOWN_UNIT" := by
  rcases unit_cases d symbol with ⟨hunit, -, u, f, hu, hf, hfactor⟩ | ⟨hunit, hlookup, -⟩
  · rw [if_pos hunit]
    cases value with
    | finite x =>
      have hamount : baseAmount? (.finite x) symbol = some (x.writtenValue * f) := by
        rw [baseAmount?, hfactor]
        rfl
      obtain ⟨hfound, hd⟩ := lookup_eq_ok_iff.1 hu
      obtain ⟨n, hstores, -, hfits⟩ := StoredQuantity.exists_count hfound hd hf x
      unfold StoredQuantity.Stores at hstores
      rw [hamount, Option.any_some]
      split at hstores
      · next hin =>
        obtain ⟨w, -, hok⟩ := hstores
        rw [if_pos (decide_eq_true (hfits.1 hin)), hok]
        rfl
      · next hout =>
        obtain ⟨detail, hdetail⟩ := hstores
        rw [if_neg fun h => hout (hfits.2 (of_decide_eq_true h)), hdetail]
        rfl
    | infinite negative =>
      rw [StoredQuantity.ofValue, bind_of_eq_ok hu]
      rfl
    | nan =>
      rw [StoredQuantity.ofValue, bind_of_eq_ok hu]
      rfl
  · rw [if_neg hunit]
    exact refusalCode?_bind_error hlookup _

/-! ## Showing -/

/-- A stored quantity is shown in every unit of its dimension, and for any other symbol the three
ways to show it give the same error. -/
theorem refusal?_show (q : StoredQuantity) (symbol : String) (o : DisplayOptions) :
    refusal? (q.valueIn symbol) = mismatch? q.dimension symbol ∧
      refusal? (q.toDisplay symbol) = mismatch? q.dimension symbol ∧
      refusal? (Format.quantity q symbol o) = mismatch? q.dimension symbol := by
  rcases unit_cases q.dimension symbol with
    ⟨-, hnone, u, f, hu, -⟩ | ⟨-, -, e, hsome, hresolve⟩
  · have hresolve := resolveFor_eq_ok_iff.2 hu
    obtain ⟨hfound, hd⟩ := lookup_eq_ok_iff.1 hu
    obtain ⟨y, hy, -⟩ := StoredQuantity.exists_valueIn hfound hd
    obtain ⟨z, hz, -⟩ := StoredQuantity.exists_inUnit q (mem_units_of_find? hfound)
    obtain ⟨number, hnumber⟩ := Format.value_ok z q.dimension.isCount o.quantityDecimals.toNat
    rw [hnone]
    refine ⟨?_, ?_, ?_⟩
    · rw [hy]
      rfl
    · rw [StoredQuantity.toDisplay, bind_of_eq_ok hy, bind_of_eq_ok hresolve]
      rfl
    · rw [Format.quantity, bind_of_eq_ok hresolve, bind_of_eq_ok hz, bind_of_eq_ok hnumber]
      rfl
  · have hvalue : q.valueIn symbol = .error e := by
      rw [StoredQuantity.valueIn, hresolve]
      rfl
    rw [hsome]
    refine ⟨?_, refusal?_bind_error hvalue _, refusal?_bind_error hresolve _⟩
    rw [hvalue]
    rfl

/-! ## Converting -/

/-- A conversion is refused for its first unit, then for its second, and then for an amount that is
not finite before or after. -/
theorem refusalCode?_convert (d : Dimension) (value : Binary64) (source target : String) :
    refusalCode? (convert d value source target) =
      if builtin.dimensionOf? source = some d then
        if builtin.dimensionOf? target = some d then
          if (convertedAmount? value source target).any fun r => |r| < overflowThreshold then none
          else some "INVALID_QUANTITY"
        else (mismatch? d target).map UnitError.code
      else some "UNKNOWN_UNIT" := by
  rcases unit_cases d source with ⟨hunit, -, u, a, hu, ha, hfactor⟩ | ⟨hunit, hlookup, -⟩
  · rw [if_pos hunit]
    rcases unit_cases d target with ⟨hunit', -, t, b, ht, hb, hfactor'⟩ | ⟨hunit', -, e, hsome, he⟩
    · rw [if_pos hunit']
      cases value with
      | finite x =>
        have hamount : convertedAmount? (.finite x) source target =
            some (x.writtenValue * a / b) := by
          rw [convertedAmount?, hfactor, hfactor']
          rfl
        obtain ⟨z, hleaves, hnear⟩ := exists_convert hu ht ha hb x
        have hiff := (isClear_of_exactFactor ha hb).lt_overflowThreshold_iff
          (exactFactor_pos (mem_units_of_find? (lookup_eq_ok_iff.1 hu).1) ha)
          (exactFactor_pos (mem_units_of_find? (lookup_eq_ok_iff.1 ht).1) hb)
          x.keeps_writtenValue hnear
        rw [hamount, Option.any_some]
        rcases lt_or_ge |z| overflowThreshold with hlt | hge
        · obtain ⟨y, hy, -⟩ := hleaves.exists_ok hlt
          rw [if_pos (decide_eq_true (hiff.1 hlt)), hy]
          rfl
        · obtain ⟨detail, hdetail⟩ := hleaves.refused hge
          rw [if_neg fun h => not_lt.2 hge (hiff.2 (of_decide_eq_true h)), hdetail]
          rfl
      | infinite negative =>
        rw [convert, bind_of_eq_ok hu, bind_of_eq_ok (resolveFor_eq_ok_iff.2 ht)]
        rfl
      | nan =>
        rw [convert, bind_of_eq_ok hu, bind_of_eq_ok (resolveFor_eq_ok_iff.2 ht)]
        rfl
    · rw [if_neg hunit', hsome, convert, bind_of_eq_ok hu]
      exact refusalCode?_bind_error he _
  · rw [if_neg hunit]
    exact refusalCode?_bind_error hlookup _

/-! ## All requests -/

/-- The codes that requests about units are refused with. -/
def requestCodes : List String := ["UNKNOWN_UNIT", "DIMENSION_MISMATCH", "INVALID_QUANTITY"]

theorem code_mismatch_mem {e : UnitError} (h : mismatch? d symbol = some e) :
    e.code ∈ requestCodes := by
  unfold mismatch? at h
  split at h
  · cases h
    exact List.mem_cons_self
  · split at h
    · cases h
    · cases h
      exact List.mem_cons_of_mem _ List.mem_cons_self

theorem code_mem_of_entering {p q : Prop} [Decidable p] [Decidable q] {code : String}
    (h : (if p then if q then none else some "INVALID_QUANTITY" else some "UNKNOWN_UNIT") =
      some code) : code ∈ requestCodes := by
  split at h
  · split at h
    · cases h
    · cases h
      decide
  · cases h
    decide

theorem code_mem_of_showing {α : Type} {r : Except UnitError α} {code : String}
    (hr : refusal? r = mismatch? d symbol) (h : refusalCode? r = some code) :
    code ∈ requestCodes := by
  rw [refusalCode?, hr, Option.map_eq_some_iff] at h
  obtain ⟨e, he, rfl⟩ := h
  exact code_mismatch_mem he

theorem code_mem_of_converting {value : Binary64} {source target : String} {code : String}
    (h : refusalCode? (convert d value source target) = some code) : code ∈ requestCodes := by
  rw [refusalCode?_convert] at h
  by_cases htarget : builtin.dimensionOf? target = some d
  · rw [if_pos htarget] at h
    exact code_mem_of_entering h
  · rw [if_neg htarget] at h
    split at h
    · obtain ⟨e, he, rfl⟩ := Option.map_eq_some_iff.1 h
      exact code_mismatch_mem he
    · cases h
      decide

/-- Dimensions are isolated and every failure has its one code.

A price and a value are entered in a unit of the dimension only, and are otherwise refused as of an
unknown unit, finite or not; in such a unit a price has to be finite and a value to have a rounded
base amount that a word holds.  A stored quantity is shown in every unit of its dimension, whatever
its count and the options, and the three ways to show it are refused alike.  A conversion looks at
its first unit, its second one, and then at whether the value is finite and the exact result is
below the overflow threshold.  No other code occurs. -/
theorem refusals (d : Dimension) (value : Binary64) (source target : String) (count : Int64)
    (o : DisplayOptions) :
    refusalCode? (UnitPrice.ofPrice d value source) =
      (if builtin.dimensionOf? source = some d then
        if value.isFinite = true then none else some "INVALID_QUANTITY"
      else some "UNKNOWN_UNIT") ∧
    refusalCode? (StoredQuantity.ofValue d value source) =
      (if builtin.dimensionOf? source = some d then
        if (baseAmount? value source).any fun r => StoredQuantity.IsStorable (halfAway r) then none
        else some "INVALID_QUANTITY"
      else some "UNKNOWN_UNIT") ∧
    (refusal? (StoredQuantity.valueIn ⟨count, d⟩ source) = mismatch? d source ∧
      refusal? (StoredQuantity.toDisplay ⟨count, d⟩ source) = mismatch? d source ∧
      refusal? (Format.quantity ⟨count, d⟩ source o) = mismatch? d source) ∧
    refusalCode? (convert d value source target) =
      (if builtin.dimensionOf? source = some d then
        if builtin.dimensionOf? target = some d then
          if (convertedAmount? value source target).any fun r => |r| < overflowThreshold then none
          else some "INVALID_QUANTITY"
        else (mismatch? d target).map UnitError.code
      else some "UNKNOWN_UNIT") ∧
    ∀ code,
      refusalCode? (UnitPrice.ofPrice d value source) = some code ∨
      refusalCode? (StoredQuantity.ofValue d value source) = some code ∨
      refusalCode? (StoredQuantity.valueIn ⟨count, d⟩ source) = some code ∨
      refusalCode? (StoredQuantity.toDisplay ⟨count, d⟩ source) = some code ∨
      refusalCode? (Format.quantity ⟨count, d⟩ source o) = some code ∨
      refusalCode? (convert d value source target) = some code →
        code ∈ requestCodes := by
  have hshow := refusal?_show ⟨count, d⟩ source o
  refine ⟨refusalCode?_ofPrice d value source, refusalCode?_ofValue d value source, hshow,
    refusalCode?_convert d value source target, ?_⟩
  rintro code (h | h | h | h | h | h)
  · rw [refusalCode?_ofPrice] at h
    exact code_mem_of_entering h
  · rw [refusalCode?_ofValue] at h
    exact code_mem_of_entering h
  · exact code_mem_of_showing hshow.1 h
  · exact code_mem_of_showing hshow.2.1 h
  · exact code_mem_of_showing hshow.2.2 h
  · exact code_mem_of_converting h

end UnitLedger
