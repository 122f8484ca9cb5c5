import UnitLedger.Registry.Factor
import UnitLedger.Proofs.Amount
import UnitLedger.Proofs.Decimal.Power
set_option autoImplicit false

/-! # Derived units

A unit of area or volume is defined by a length unit, a power and a ratio.  Its factor is computed
by a quotient and several products, each of them rounded; it is exact whenever fifty digits hold the
power, the ratio and their product (`registerDerived_exact`).  This does not depend on what the
length units of the registry are, so a change of a length factor moves the factors of all units of a
table that are derived from it (`registerTable_exact`).
-/

namespace UnitLedger.Registry

open Decimal

/-- The numbers of the row are 64-bit integers, and fifty digits hold the power of the length factor
`g`, the ratio of the row and their product. -/
structure DerivedRow.Fits (row : DerivedRow) (power : Nat) (g : Rat) : Prop where
  num_le : row.num.natAbs ≤ 2 ^ 63
  den_le : row.den.natAbs ≤ 2 ^ 63
  den_ne_zero : row.den ≠ 0
  keeps_power : Keeps workingPrecision (g ^ power)
  keeps_ratio : Keeps workingPrecision row.ratio
  keeps_factor : Keeps workingPrecision (g ^ power * row.ratio)

/-! ## One row -/

/-- A 64-bit integer is a decimal without loss. -/
theorem toRat_ofInt_of_le {n : Int} (h : n.natAbs ≤ 2 ^ 63) : (ofInt n).toRat = n :=
  toRat_ofInt (keeps_intCast_of_lt (h.trans_lt (by decide)))

/-- A ratio that fits the working precision is computed without loss. -/
theorem DerivedRow.Fits.exists_ratio {row : DerivedRow} {power : Nat} {g : Rat}
    (h : row.Fits power g) :
    ∃ ratio, ofRatio row.num row.den = .ok ratio ∧ ratio.toRat = row.ratio := by
  have hnum := toRat_ofInt_of_le h.num_le
  have hden := toRat_ofInt_of_le h.den_le
  have hne : (ofInt row.den).toRat ≠ 0 := by
    rw [hden]
    exact Int.cast_ne_zero.2 h.den_ne_zero
  have hmax : max (ofInt row.num).precision (ofInt row.den).precision = workingPrecision := by
    rw [ofInt_precision, ofInt_precision, Nat.max_self]
  obtain ⟨ratio, hok, -, -, hexact⟩ := exists_div hne (by decide) hmax
  rw [hnum, hden] at hexact
  exact ⟨ratio, hok, hexact h.keeps_ratio⟩

/-- A product with a power is exact when the power and the product fit the working precision. -/
theorem toRat_pow_mul {x y : Decimal} {n : Nat} (hpower : Keeps workingPrecision (x.toRat ^ n))
    (hproduct : Keeps workingPrecision (x.toRat ^ n * y.toRat)) :
    ((x.pow n).mul y).toRat = x.toRat ^ n * y.toRat := by
  have hroom : workingPrecision ≤ max (x.pow n).precision y.precision :=
    (le_pow_precision x n).trans (Nat.le_max_left _ _)
  rw [toRat_mul_of_keeps, toRat_pow_of_keeps hpower]
  rw [toRat_pow_of_keeps hpower]
  exact hproduct.mono (by decide) hroom

variable {d : Dimension} {power : Nat} {r : Registry} {row : DerivedRow}

theorem lengthFactor_eq_ok_iff {key : String} {g : Decimal} :
    r.lengthFactor key = .ok g ↔ ∃ u, r.unitAt? key.toList = some u ∧ u.factor = g := by
  unfold lengthFactor
  cases r.unitAt? key.toList with
  | none => simp
  | some u => simp

/-- A row that fits is registered with its exact factor. -/
theorem exists_registerDerived {g : Decimal} (hpower : d.lengthPower? = some power)
    (hlength : r.lengthFactor row.length = .ok g) (h : row.Fits power g.toRat) :
    ∃ factor, r.registerDerived d row =
        .ok (r.register ⟨row.symbol, row.name, d, row.system, factor⟩) ∧
      factor.toRat = g.toRat ^ power * row.ratio := by
  obtain ⟨ratio, hratio, hvalue⟩ := h.exists_ratio
  refine ⟨(g.pow power).mul ratio, ?_, ?_⟩
  · rw [registerDerived, hpower, hlength, hratio]
    rfl
  · rw [← hvalue]
    exact toRat_pow_mul h.keeps_power (hvalue.symm ▸ h.keeps_factor)

/-- A unit of area or volume has exactly the factor that its row defines from the length unit of the
registry, whatever that is, when fifty digits hold the power, the ratio and their product.  It is
found under its symbol, and the units from before stay as they are. -/
theorem registerDerived_exact {u : MeasureUnit}
    (hd : d = .area ∧ power = 2 ∨ d = .volume ∧ power = 3)
    (hlength : r.unitAt? row.length.toList = some u) (h : row.Fits power u.factor.toRat) :
    ∃ s factor, r.registerDerived d row = .ok s ∧
      factor.toRat = u.factor.toRat ^ power * row.ratio ∧
      s.units = r.units ++ [⟨row.symbol, row.name, d, row.system, factor⟩] ∧
      s.unitAt? (Symbol.key row.symbol) =
        some ⟨row.symbol, row.name, d, row.system, factor⟩ ∧
      ∀ key v, key ≠ Symbol.key row.symbol → r.unitAt? key = some v →
        s.unitAt? key = some v := by
  have hpower : d.lengthPower? = some power := by
    rcases hd with ⟨rfl, rfl⟩ | ⟨rfl, rfl⟩ <;> rfl
  obtain ⟨factor, hok, hvalue⟩ :=
    exists_registerDerived hpower (lengthFactor_eq_ok_iff.2 ⟨u, hlength, rfl⟩) h
  exact ⟨_, factor, hok, hvalue, rfl, unitAt?_register_self _ _,
    fun key v hkey hv => unitAt?_register_of_ne hkey hv⟩

/-- An inch that has been retuned to fifteen digits. -/
def retunedInch : MeasureUnit :=
  ⟨"in", "inch", .length, .imperial, ⟨254000508001016, -13, 50, by decide⟩⟩

/-- A pint of 231/8 cubic inches. -/
def pintRow : DerivedRow := ⟨"pt", "US pint", .imperial, "in", 231, 8⟩

theorem registerDerived_exact_pint :
    (empty.register retunedInch).unitAt? pintRow.length.toList = some retunedInch ∧
      pintRow.Fits 3 retunedInch.factor.toRat ∧
      ∃ s factor, (empty.register retunedInch).registerDerived .volume pintRow = .ok s ∧
        factor.toRat = (254000508001016 / 10 ^ 13) ^ 3 * (231 / 8) ∧
        s.units = [retunedInch, ⟨"pt", "US pint", .volume, .imperial, factor⟩] := by
  have hlength : (empty.register retunedInch).unitAt? pintRow.length.toList = some retunedInch := by
    decide +kernel
  have hvalue : retunedInch.factor.toRat = 254000508001016 / 10 ^ 13 := by
    norm_num [retunedInch, toRat]
  have hfits : pintRow.Fits 3 retunedInch.factor.toRat := by
    rw [hvalue]
    exact ⟨by decide, by decide, by decide,
      Or.inr ⟨254000508001016 ^ 3, -39, by decide +kernel, by norm_num⟩,
      Or.inr ⟨28875, -3, by decide +kernel, by norm_num [pintRow, DerivedRow.ratio]⟩,
      Or.inr ⟨254000508001016 ^ 3 * 28875, -42, by decide +kernel,
        by norm_num [pintRow, DerivedRow.ratio]⟩⟩
  obtain ⟨s, factor, hok, hfactor, hunits, -⟩ :=
    registerDerived_exact (Or.inr ⟨rfl, rfl⟩) hlength hfits
  refine ⟨hlength, hfits, s, factor, hok, ?_, hunits⟩
  rw [hfactor, hvalue]
  norm_num [pintRow, DerivedRow.ratio]

/-! ## A table -/

/-- What a length unit is when another unit has been registered under another key. -/
theorem lengthFactor_register_of_ne {u : MeasureUnit} {key : String} {g : Decimal}
    (hkey : key.toList ≠ Symbol.key u.symbol) (h : r.lengthFactor key = .ok g) :
    (r.register u).lengthFactor key = .ok g := by
  obtain ⟨v, hv, hg⟩ := lengthFactor_eq_ok_iff.1 h
  exact lengthFactor_eq_ok_iff.2 ⟨v, unitAt?_register_of_ne hkey hv, hg⟩

/-- The unit that the row defines when its length unit has the factor `g`. -/
structure DerivedRow.Defines (row : DerivedRow) (d : Dimension) (power : Nat) (g : Rat)
    (u : MeasureUnit) : Prop where
  symbol : u.symbol = row.symbol
  name : u.name = row.name
  dimension : u.dimension = d
  system : u.system = row.system
  factor : u.factor.toRat = g ^ power * row.ratio

/-- All units of a table follow the length factors: the table is registered row by row with exact
factors, as long as no row takes the key of a length unit that a later row is derived from. -/
theorem registerTable_exact {rows : List DerivedRow} {length : String → Decimal}
    (hpower : d.lengthPower? = some power)
    (hlengths : ∀ row ∈ rows, r.lengthFactor row.length = .ok (length row.length))
    (hfits : ∀ row ∈ rows, row.Fits power (length row.length).toRat)
    (hkeys : rows.Pairwise fun row later => later.length.toList ≠ Symbol.key row.symbol) :
    ∃ units : List MeasureUnit,
      rows.foldlM (registerDerived d) r = .ok (units.foldl register r) ∧
      List.Forall₂ (fun row u => row.Defines d power (length row.length).toRat u) rows units := by
  induction rows generalizing r with
  | nil => exact ⟨[], rfl, List.Forall₂.nil⟩
  | cons row rows ih =>
    rw [List.forall_mem_cons] at hlengths hfits
    rw [List.pairwise_cons] at hkeys
    obtain ⟨factor, hok, hvalue⟩ := exists_registerDerived hpower hlengths.1 hfits.1
    -- the length units of the other rows are the same in the new registry
    have hlengths' : ∀ later ∈ rows,
        (r.register ⟨row.symbol, row.name, d, row.system, factor⟩).lengthFactor later.length =
          .ok (length later.length) := fun later hlater =>
      lengthFactor_register_of_ne (hkeys.1 later hlater) (hlengths.2 later hlater)
    obtain ⟨units, hrest, hdefines⟩ := ih hlengths' hfits.2 hkeys.2
    refine ⟨⟨row.symbol, row.name, d, row.system, factor⟩ :: units, ?_, ?_⟩
    · rw [List.foldlM_cons, bind_of_eq_ok hok, hrest]
      rfl
    · exact List.Forall₂.cons ⟨rfl, rfl, rfl, rfl, hvalue⟩ hdefines

end UnitLedger.Registry
