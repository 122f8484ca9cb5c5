import UnitLedger.MeasureUnit
import UnitLedger.Symbol
set_option autoImplicit false

/-! # Unit registries

A registry holds units in the order in which they were registered, an index of their keys, further
spellings, and the positions of the units of each dimension.  Of two units of one key, and of two
targets of one spelling, the later one counts.
-/

namespace UnitLedger

/-- A collection of units that are found by symbol. -/
structure Registry where
  /-- In the order of registration. -/
  units : List MeasureUnit
  /-- Positions of the units under their keys, the latest first. -/
  index : List (List Char × Nat)
  /-- Keys that stand for other keys, the latest first. -/
  aliases : List (List Char × List Char)
  /-- Positions of the units of a dimension, in the order of registration. -/
  members : Dimension → List Nat

/-- Units to choose from, by system. -/
structure UnitGroups where
  metric : List MeasureUnit
  imperial : List MeasureUnit
  deriving DecidableEq, Repr

namespace UnitGroups

/-- All units, the metric ones first. -/
def toList (g : UnitGroups) : List MeasureUnit := g.metric ++ g.imperial

def symbols (g : UnitGroups) : List String := g.toList.map (·.symbol)

end UnitGroups

namespace Registry

def empty : Registry := ⟨[], [], [], fun _ => []⟩

/-! ## Building -/

/-- Adds a unit at the end. -/
def register (r : Registry) (u : MeasureUnit) : Registry where
  units := r.units ++ [u]
  index := (Symbol.key u.symbol, r.units.length) :: r.index
  aliases := r.aliases
  members d := if d = u.dimension then r.members d ++ [r.units.length] else r.members d

/-- Adds a spelling of a symbol. -/
def addAlias (r : Registry) (spelling symbol : String) : Registry where
  units := r.units
  index := r.index
  aliases := (Symbol.key spelling, Symbol.key symbol) :: r.aliases
  members := r.members

@[simp] theorem units_register (r : Registry) (u : MeasureUnit) :
    (r.register u).units = r.units ++ [u] := rfl

@[simp] theorem index_register (r : Registry) (u : MeasureUnit) :
    (r.register u).index = (Symbol.key u.symbol, r.units.length) :: r.index := rfl

theorem members_register (r : Registry) (u : MeasureUnit) (d : Dimension) :
    (r.register u).members d =
      if d = u.dimension then r.members d ++ [r.units.length] else r.members d := rfl

@[simp] theorem aliases_register (r : Registry) (u : MeasureUnit) :
    (r.register u).aliases = r.aliases := rfl

@[simp] theorem units_addAlias (r : Registry) (spelling symbol : String) :
    (r.addAlias spelling symbol).units = r.units := rfl

@[simp] theorem index_addAlias (r : Registry) (spelling symbol : String) :
    (r.addAlias spelling symbol).index = r.index := rfl

@[simp] theorem aliases_addAlias (r : Registry) (spelling symbol : String) :
    (r.addAlias spelling symbol).aliases =
      (Symbol.key spelling, Symbol.key symbol) :: r.aliases := rfl

@[simp] theorem members_addAlias (r : Registry) (spelling symbol : String) :
    (r.addAlias spelling symbol).members = r.members := rfl

/-! ## Looking up -/

/-- The unit registered under a key. -/
def unitAt? (r : Registry) (key : List Char) : Option MeasureUnit :=
  (r.index.lookup key).bind fun i => r.units[i]?

/-- The latest unit is found under its key. -/
theorem unitAt?_register_self (r : Registry) (u : MeasureUnit) :
    (r.register u).unitAt? (Symbol.key u.symbol) = some u := by
  simp [unitAt?]

/-- Under other keys the units from before are found. -/
theorem unitAt?_register_of_ne {r : Registry} {u v : MeasureUnit} {key : List Char}
    (hkey : key ≠ Symbol.key u.symbol) (hv : r.unitAt? key = some v) :
    (r.register u).unitAt? key = some v := by
  unfold unitAt? at hv ⊢
  obtain ⟨i, hi, hunit⟩ := Option.bind_eq_some_iff.1 hv
  obtain ⟨hlt, -⟩ := List.getElem?_eq_some_iff.1 hunit
  rw [index_register, List.lookup_cons, beq_eq_false_iff_ne.2 hkey, hi, Option.bind_some,
    units_register, List.getElem?_append_left hlt, hunit]

/-- The key that a key stands for. -/
def resolve (r : Registry) (key : List Char) : List Char := (r.aliases.lookup key).getD key

/-- The unit that a symbol or another spelling of it names, in any dimension. -/
def find? (r : Registry) (symbol : String) : Option MeasureUnit :=
  r.unitAt? (r.resolve (Symbol.key symbol))

/-- The unit of a dimension that a symbol names.  A unit of another dimension counts as unknown. -/
def lookup (r : Registry) (d : Dimension) (symbol : String) : Except UnitError MeasureUnit :=
  match r.find? symbol with
  | some u => if u.dimension = d then .ok u else .error (.unknownUnit d.name symbol)
  | none => .error (.unknownUnit d.name symbol)

/-- The unit of a dimension that a symbol names, with a unit of another dimension told apart from an
unknown one. -/
def resolveFor (r : Registry) (d : Dimension) (symbol : String) : Except UnitError MeasureUnit :=
  match r.find? symbol with
  | some u =>
    if u.dimension = d then .ok u
    else .error (.dimensionMismatch d.name u.dimension.name symbol)
  | none => .error (.unknownUnit d.name symbol)

theorem lookup_eq_ok_iff {r : Registry} {d : Dimension} {symbol : String} {u : MeasureUnit} :
    r.lookup d symbol = .ok u ↔ r.find? symbol = some u ∧ u.dimension = d := by
  unfold lookup
  cases r.find? symbol with
  | none => simp
  | some v =>
    by_cases h : v.dimension = d
    · simp only [h, if_true, Except.ok.injEq, Option.some.injEq]
      exact ⟨fun e => ⟨e, e ▸ h⟩, fun e => e.1⟩
    · simp only [h, if_false, reduceCtorEq, Option.some.injEq, false_iff]
      exact fun e => h (e.1 ▸ e.2)

theorem resolveFor_eq_ok_iff {r : Registry} {d : Dimension} {symbol : String} {u : MeasureUnit} :
    r.resolveFor d symbol = .ok u ↔ r.lookup d symbol = .ok u := by
  unfold resolveFor lookup
  cases r.find? symbol with
  | none => simp
  | some v => by_cases h : v.dimension = d <;> simp [h]

/-- The dimension of the unit that a symbol names. -/
def dimensionOf? (r : Registry) (symbol : String) : Option Dimension :=
  (r.find? symbol).map (·.dimension)

/-- The symbol names an imperial unit of the dimension. -/
def isImperial (r : Registry) (d : Dimension) (symbol : String) : Bool :=
  match r.find? symbol with
  | some u => u.dimension = d && u.isImperial
  | none => false

/-- The double nearest to the factor of a unit of a dimension. -/
def factorToBase (r : Registry) (d : Dimension) (symbol : String) :
    Except UnitError Binary64.Finite :=
  r.lookup d symbol >>= MeasureUnit.factorDouble

/-- The unit in which quantities of a dimension are stored. -/
def baseUnit? (r : Registry) (d : Dimension) : Option MeasureUnit :=
  r.unitAt? d.baseSymbol.toList

/-! ## Listing -/

/-- The units of a dimension in the order of registration. -/
def unitsOf (r : Registry) (d : Dimension) : List MeasureUnit :=
  (r.members d).filterMap fun i => r.units[i]?

/-- The units of a dimension by system. -/
def groups (r : Registry) (d : Dimension) : UnitGroups where
  metric := (r.unitsOf d).filter (!·.isImperial)
  imperial := (r.unitsOf d).filter (·.isImperial)

/-- The symbols of all units in the order of registration. -/
def symbols (r : Registry) : List String := r.units.map (·.symbol)

end Registry

end UnitLedger
