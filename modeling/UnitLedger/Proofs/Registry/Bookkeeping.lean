import UnitLedger.Registry.Tables
import UnitLedger.Proofs.Amount
import Mathlib.Data.List.Induction
import Mathlib.Data.List.Nodup
import Mathlib.Data.List.Perm.Basic
set_option autoImplicit false

/-! # Bookkeeping of a registry

A registry keeps its units, the index of their keys, the further spellings and the positions of each
dimension side by side.  Whatever calls built it, each part is a function of the calls (`Records`):
one call keeps that (`Records.apply`), so a sequence of calls does (`records_ofCalls`).  From the
parts follow that no unit is lost or listed twice (`IsFiled`, `IsGrouped`) and what each symbol and
spelling names (`ofCalls_consistent`).  The built-in registry is built by such calls too
(`exists_ofCalls_builtin`).
-/

namespace UnitLedger.Registry

/-! ## Calls -/

/-- A call that builds a registry up. -/
inductive Call where
  | register (u : MeasureUnit)
  | addAlias (spelling target : String)

namespace Call

def apply (r : Registry) : Call → Registry
  | register u => r.register u
  | addAlias spelling target => r.addAlias spelling target

/-- The unit that the call adds. -/
def unit? : Call → Option MeasureUnit
  | register u => some u
  | addAlias _ _ => none

/-- The key of the spelling that the call adds, with the key it stands for. -/
def keys? : Call → Option (List Char × List Char)
  | register _ => none
  | addAlias spelling target => some (Symbol.key spelling, Symbol.key target)

end Call

/-- The registry that the calls build. -/
def ofCalls (calls : List Call) : Registry := calls.foldl Call.apply empty

/-- The units that the calls add. -/
def registered (calls : List Call) : List MeasureUnit := calls.filterMap Call.unit?

theorem ofCalls_concat (calls : List Call) (c : Call) :
    ofCalls (calls ++ [c]) = c.apply (ofCalls calls) :=
  List.foldl_concat ..

/-! ## One call -/

/-- The position holds a unit of the dimension. -/
def Holds (units : List MeasureUnit) (d : Dimension) (i : Nat) : Prop :=
  units[i]?.map (·.dimension) = some d

instance (units : List MeasureUnit) (d : Dimension) : DecidablePred (Holds units d) :=
  fun _ => inferInstanceAs (Decidable (_ = _))

/-- The parts of a registry as functions of the calls that built it. -/
structure Records (calls : List Call) (r : Registry) : Prop where
  units : r.units = registered calls
  aliases : r.aliases = (calls.filterMap Call.keys?).reverse
  members : ∀ d, r.members d = (List.range r.units.length).filter (Holds r.units d)
  index_lt : ∀ e ∈ r.index, e.2 < r.units.length
  unitAt? : ∀ key, r.unitAt? key = r.units.reverse.find? (Symbol.key ·.symbol = key)

/-- A unit takes its own key and no other one. -/
theorem unitAt?_register {r : Registry} (h : ∀ e ∈ r.index, e.2 < r.units.length) (u : MeasureUnit)
    (key : List Char) :
    (r.register u).unitAt? key = if Symbol.key u.symbol = key then some u else r.unitAt? key := by
  by_cases hkey : Symbol.key u.symbol = key
  · rw [if_pos hkey, ← hkey, unitAt?_register_self]
  · rw [if_neg hkey, Registry.unitAt?, Registry.unitAt?, index_register, List.lookup_cons,
      beq_eq_false_iff_ne.2 (Ne.symm hkey), units_register]
    cases hi : r.index.lookup key with
    | none => rfl
    | some i =>
      obtain ⟨front, back, hindex, -⟩ := List.lookup_eq_some_iff.1 hi
      have hlt : i < r.units.length := h (key, i) (by simp [hindex])
      rw [Option.bind_some, Option.bind_some, List.getElem?_append_left hlt]

/-- Positions hold the same units when a unit is added at the end. -/
theorem holds_concat_of_lt {units : List MeasureUnit} {i : Nat} (h : i < units.length)
    (u : MeasureUnit) (d : Dimension) : Holds (units ++ [u]) d i ↔ Holds units d i := by
  rw [Holds, Holds, List.getElem?_append_left h]

theorem holds_concat_length (units : List MeasureUnit) (u : MeasureUnit) (d : Dimension) :
    Holds (units ++ [u]) d units.length ↔ d = u.dimension := by
  simp [Holds, eq_comm]

variable {calls : List Call} {r : Registry}

theorem Records.register (h : Records calls r) (u : MeasureUnit) :
    Records (calls ++ [.register u]) (r.register u) where
  units := by simp [h.units, registered, Call.unit?]
  aliases := by simp [h.aliases, Call.keys?]
  members d := by
    have hold : (List.range r.units.length).filter (Holds (r.units ++ [u]) d) = r.members d := by
      rw [h.members]
      exact List.filter_congr fun i hi =>
        decide_eq_decide.2 (holds_concat_of_lt (List.mem_range.1 hi) u d)
    rw [members_register, units_register, List.length_append, List.length_singleton,
      List.range_succ, List.filter_append, hold]
    by_cases hd : d = u.dimension <;> simp [hd, holds_concat_length]
  index_lt := by
    intro e he
    rw [units_register, List.length_append, List.length_singleton]
    rcases List.mem_cons.1 he with rfl | he
    · exact Nat.lt_succ_self _
    · exact Nat.lt_succ_of_lt (h.index_lt e he)
  unitAt? key := by
    rw [unitAt?_register h.index_lt, units_register, List.reverse_concat, List.find?_cons,
      h.unitAt?]
    by_cases hkey : Symbol.key u.symbol = key <;> simp [hkey]

theorem Records.addAlias (h : Records calls r) (spelling target : String) :
    Records (calls ++ [.addAlias spelling target]) (r.addAlias spelling target) where
  units := by simp [h.units, registered, Call.unit?]
  aliases := by simp [h.aliases, Call.keys?]
  members := h.members
  index_lt := h.index_lt
  unitAt? := h.unitAt?

theorem Records.apply (h : Records calls r) (c : Call) : Records (calls ++ [c]) (c.apply r) := by
  cases c with
  | register u => exact h.register u
  | addAlias spelling target => exact h.addAlias spelling target

/-! ## All calls -/

theorem records_ofCalls (calls : List Call) : Records calls (ofCalls calls) := by
  induction calls using List.reverseRecOn with
  | nil => exact ⟨rfl, rfl, fun _ => rfl, by simp [ofCalls, empty], fun _ => rfl⟩
  | append_singleton calls c ih =>
    rw [ofCalls_concat]
    exact ih.apply c

/-! ## Positions and groups -/

/-- Told apart by a property with values among the dimensions, nothing of a list is lost and nothing
is listed twice. -/
theorem perm_flatMap_filter {α : Type} [DecidableEq α] {l : List α} {f : α → Option Dimension}
    (h : ∀ a ∈ l, ∃ d, f a = some d) :
    (Dimension.all.flatMap fun d => l.filter (f · = some d)).Perm l := by
  rw [List.perm_iff_count]
  intro a
  by_cases ha : a ∈ l
  · obtain ⟨d, hd⟩ := h a ha
    have hcount (e : Dimension) :
        (l.filter (f · = some e)).count a = if d = e then l.count a else 0 := by
      by_cases hde : d = e
      · rw [if_pos hde, List.count_filter (by simp [hd, hde])]
      · rw [if_neg hde, List.count_eq_zero]
        simp [hd, hde]
    cases d <;> simp [Dimension.all, hcount]
  · rw [List.count_eq_zero.2 ha, List.count_eq_zero]
    simp [ha]

/-- The positions of all units, each once and with the units of its dimension, in the order of
registration. -/
structure IsFiled (r : Registry) : Prop where
  perm : (Dimension.all.flatMap r.members).Perm (List.range r.units.length)
  mem_iff : ∀ d i, i ∈ r.members d ↔ ∃ u, r.units[i]? = some u ∧ u.dimension = d
  sorted : ∀ d, (r.members d).Pairwise (· < ·)

theorem Records.isFiled (h : Records calls r) : IsFiled r where
  perm := by
    simp only [funext h.members, Holds]
    refine perm_flatMap_filter fun i hi => ?_
    rw [List.getElem?_eq_getElem (List.mem_range.1 hi)]
    exact ⟨_, rfl⟩
  mem_iff d i := by
    rw [h.members, List.mem_filter, List.mem_range, decide_eq_true_iff, Holds,
      Option.map_eq_some_iff]
    refine and_iff_right_of_imp ?_
    rintro ⟨u, hu, -⟩
    exact (List.getElem?_eq_some_iff.1 hu).1
  sorted d := by
    rw [h.members]
    exact List.pairwise_lt_range.filter _

/-- All units of all dimensions, each once, the imperial ones apart from the metric ones and both in
the order of registration. -/
structure IsGrouped (r : Registry) : Prop where
  perm : (Dimension.all.flatMap fun d => (r.groups d).toList).Perm r.units
  metric : ∀ d, (r.groups d).metric =
    r.units.filter fun u => u.dimension = d ∧ u.system = .metric
  imperial : ∀ d, (r.groups d).imperial =
    r.units.filter fun u => u.dimension = d ∧ u.system = .imperial

theorem filterMap_range_getElem? {α : Type} (l : List α) :
    (List.range l.length).filterMap (l[·]?) = l := by
  induction l using List.reverseRecOn with
  | nil => rfl
  | append_singleton l a ih =>
    have hold : (List.range l.length).filterMap ((l ++ [a])[·]?) = l := by
      rw [List.filterMap_congr fun i hi => List.getElem?_append_left (List.mem_range.1 hi), ih]
    simp [List.range_succ, hold]

theorem Records.unitsOf (h : Records calls r) (d : Dimension) :
    r.unitsOf d = r.units.filter (·.dimension = d) := by
  conv_rhs => rw [← filterMap_range_getElem? r.units]
  rw [Registry.unitsOf, h.members, List.filterMap_filter, List.filter_filterMap]
  refine List.filterMap_congr fun i _ => ?_
  cases hi : r.units[i]? with
  | none => simp
  | some u => by_cases hd : u.dimension = d <;> simp [Holds, hi, hd, Option.filter]

theorem Records.filter_unitsOf (h : Records calls r) (d : Dimension) {p : MeasureUnit → Bool}
    {system : UnitSystem} (hp : ∀ u, p u = decide (u.system = system)) :
    (r.unitsOf d).filter p = r.units.filter fun u => u.dimension = d ∧ u.system = system := by
  rw [h.unitsOf, List.filter_filter]
  refine List.filter_congr fun u _ => ?_
  rw [hp, Bool.decide_and, Bool.and_comm]

theorem Records.isGrouped (h : Records calls r) : IsGrouped r where
  perm := by
    have hgroup (d : Dimension) :
        (r.groups d).toList.Perm (r.units.filter (·.dimension = d)) := by
      rw [UnitGroups.toList, groups, h.unitsOf]
      exact List.perm_append_comm.trans (List.filter_append_perm _ _)
    refine (List.Perm.flatMap_left _ fun d _ => hgroup d).trans ?_
    simpa using perm_flatMap_filter (f := fun u : MeasureUnit => some u.dimension)
      fun u _ => ⟨u.dimension, rfl⟩
  metric d := h.filter_unitsOf d fun u => by
    cases hs : u.system <;> simp [MeasureUnit.isImperial, hs]
  imperial d := h.filter_unitsOf d fun _ => rfl

/-! ## Symbols and spellings -/

/-- No two registered symbols have the same key, and no further spelling has the key of one. -/
structure HasDistinctKeys (calls : List Call) : Prop where
  symbols : ((registered calls).map (Symbol.key ·.symbol)).Nodup
  spellings : ∀ spelling target, Call.addAlias spelling target ∈ calls →
    ∀ u ∈ registered calls, Symbol.key u.symbol ≠ Symbol.key spelling

/-- With distinct keys a key names the one unit whose symbol has it, if there is one. -/
theorem Records.unitAt?_eq_some_iff (h : Records calls r) (hkeys : HasDistinctKeys calls)
    {key : List Char} {u : MeasureUnit} :
    r.unitAt? key = some u ↔ u ∈ registered calls ∧ Symbol.key u.symbol = key := by
  rw [h.unitAt?, h.units]
  constructor
  · intro hu
    exact ⟨List.mem_reverse.1 (List.mem_of_find?_eq_some hu), by simpa using List.find?_some hu⟩
  · rintro ⟨hmem, hkey⟩
    obtain ⟨v, hv⟩ : ∃ v, (registered calls).reverse.find? (Symbol.key ·.symbol = key) = some v :=
      Option.isSome_iff_exists.1 (List.find?_isSome.2 ⟨u, List.mem_reverse.2 hmem, by simpa⟩)
    have hvkey : Symbol.key v.symbol = key := by simpa using List.find?_some hv
    have hvmem : v ∈ registered calls := List.mem_reverse.1 (List.mem_of_find?_eq_some hv)
    rw [hv, List.inj_on_of_nodup_map hkeys.symbols hvmem hmem (hvkey.trans hkey.symm)]

theorem Call.keys?_eq_some_iff {c : Call} {key target : List Char} :
    c.keys? = some (key, target) ↔
      ∃ s t, c = .addAlias s t ∧ Symbol.key s = key ∧ Symbol.key t = target := by
  cases c with
  | register u => simp [keys?]
  | addAlias s t => simp [keys?]

/-- A key that none of the calls makes a spelling's is not looked up as one. -/
theorem lookup_keys?_eq_none {calls : List Call} {key : List Char}
    (h : ∀ s t, Call.addAlias s t ∈ calls → key ≠ Symbol.key s) :
    (calls.filterMap Call.keys?).reverse.lookup key = none := by
  rw [List.lookup_eq_none_iff]
  rintro ⟨spelled, target⟩ hmem
  obtain ⟨c, hc, hkeys⟩ := List.mem_filterMap.1 (List.mem_reverse.1 hmem)
  obtain ⟨s, t, rfl, rfl, -⟩ := Call.keys?_eq_some_iff.1 hkeys
  simpa using h s t hc

/-- A key that is no spelling's stands for itself. -/
theorem Records.resolve_of_ne (h : Records calls r) {key : List Char}
    (hkey : ∀ s t, Call.addAlias s t ∈ calls → key ≠ Symbol.key s) : r.resolve key = key := by
  rw [resolve, h.aliases, lookup_keys?_eq_none hkey, Option.getD_none]

/-- A spelling stands for the latest target that it was given. -/
theorem Records.resolve_latest {before after : List Call} {spelling target : String}
    (h : Records (before ++ .addAlias spelling target :: after) r)
    (hlatest : ∀ s t, Call.addAlias s t ∈ after → Symbol.key spelling ≠ Symbol.key s) :
    r.resolve (Symbol.key spelling) = Symbol.key target := by
  have hkeys : (Call.addAlias spelling target).keys? =
      some (Symbol.key spelling, Symbol.key target) := rfl
  rw [resolve, h.aliases, List.filterMap_append, List.filterMap_cons_some hkeys,
    List.reverse_append, List.reverse_cons, List.append_assoc, List.lookup_append,
    lookup_keys?_eq_none hlatest, Option.none_or, List.singleton_append, List.lookup_cons_self,
    Option.getD_some]

/-- The units are found by their symbols, and a spelling that was added finds the unit whose symbol
has the key of its latest target, or nothing if there is no such unit.  Spellings of one key count
as one spelling. -/
structure FindsAll (calls : List Call) (r : Registry) : Prop where
  symbol : ∀ u ∈ registered calls,
    r.find? u.symbol = some u ∧ r.lookup u.dimension u.symbol = .ok u
  spelling : ∀ before s t after, calls = before ++ .addAlias s t :: after →
    (∀ s' t', Call.addAlias s' t' ∈ after → Symbol.key s ≠ Symbol.key s') →
    ∀ u, r.find? s = some u ↔ u ∈ registered calls ∧ Symbol.key u.symbol = Symbol.key t

theorem Records.findsAll (h : Records calls r) (hkeys : HasDistinctKeys calls) :
    FindsAll calls r where
  symbol u hu := by
    have hfind : r.find? u.symbol = some u := by
      rw [find?, h.resolve_of_ne fun s t hmem => hkeys.spellings s t hmem u hu]
      exact (h.unitAt?_eq_some_iff hkeys).2 ⟨hu, rfl⟩
    exact ⟨hfind, lookup_eq_ok_iff.2 ⟨hfind, rfl⟩⟩
  spelling before s t after hcalls hlatest u := by
    subst hcalls
    rw [find?, h.resolve_latest hlatest, h.unitAt?_eq_some_iff hkeys]

/-! ## Any calls -/

/-- Whatever calls built a registry, it lists every registered unit once, in the list of its
dimension and in the group of its system.  With distinct keys symbols and spellings name what they
were given to. -/
theorem ofCalls_consistent (calls : List Call) :
    (ofCalls calls).units = registered calls ∧ IsFiled (ofCalls calls) ∧
      IsGrouped (ofCalls calls) ∧ (HasDistinctKeys calls → FindsAll calls (ofCalls calls)) :=
  have h := records_ofCalls calls
  ⟨h.units, h.isFiled, h.isGrouped, h.findsAll⟩

/-- Calls that give a spelling a second target, and another one a target that no unit has. -/
def inchCalls : List Call :=
  [.register ⟨"in", "inch", .length, .imperial, inch⟩, .addAlias "Zoll" "in",
    .register ⟨"cm", "centimeter", .length, .metric, Decimal.ofInt 10⟩, .addAlias " zoll" "CM",
    .addAlias "ell" "yd"]

theorem ofCalls_consistent_inch :
    HasDistinctKeys inchCalls ∧
      (ofCalls inchCalls).find? " zoll" =
        some ⟨"cm", "centimeter", .length, .metric, Decimal.ofInt 10⟩ ∧
      (ofCalls inchCalls).find? "ell" = none := by
  have hkeys : HasDistinctKeys inchCalls := by
    refine ⟨by decide, fun s t hmem => ?_⟩
    simp only [inchCalls, List.mem_cons, reduceCtorEq, Call.addAlias.injEq, List.not_mem_nil,
      false_or, or_false] at hmem
    rcases hmem with ⟨rfl, rfl⟩ | ⟨rfl, rfl⟩ | ⟨rfl, rfl⟩ <;> decide
  obtain ⟨-, -, -, hfinds⟩ := ofCalls_consistent inchCalls
  have hspelling := (hfinds hkeys).spelling
  refine ⟨hkeys, ?_, Option.eq_none_iff_forall_ne_some.2 fun u hu => ?_⟩
  · have hlast : ∀ s t, Call.addAlias s t ∈ [Call.addAlias "ell" "yd"] →
        Symbol.key " zoll" ≠ Symbol.key s := by
      intro s t hmem
      obtain ⟨rfl, rfl⟩ : s = "ell" ∧ t = "yd" := by simpa using hmem
      decide
    exact (hspelling (inchCalls.take 3) " zoll" "CM" _ rfl hlast _).2
      ⟨by simp [registered, inchCalls, Call.unit?], by decide⟩
  · obtain ⟨hmem, hkey⟩ := (hspelling (inchCalls.take 4) "ell" "yd" [] rfl (by simp) u).1 hu
    have hnone : ∀ v ∈ registered inchCalls, Symbol.key v.symbol ≠ Symbol.key "yd" := by decide
    exact hnone u hmem hkey

/-! ## The built-in registry -/

/-- The one registry becomes the other by some calls. -/
def Grows (r s : Registry) : Prop := ∃ calls : List Call, s = calls.foldl Call.apply r

theorem Grows.refl (r : Registry) : Grows r r := ⟨[], rfl⟩

theorem Grows.call (r : Registry) (c : Call) : Grows r (c.apply r) := ⟨[c], rfl⟩

theorem Grows.trans {r s t : Registry} : Grows r s → Grows s t → Grows r t
  | ⟨calls, hs⟩, ⟨calls', ht⟩ => ⟨calls ++ calls', by rw [ht, hs, List.foldl_append]⟩

/-- A table grows the registry when each of its rows does. -/
theorem grows_of_foldlM {α : Type} {step : Registry → α → Except UnitError Registry}
    (hstep : ∀ {r s row}, step r row = .ok s → Grows r s) {rows : List α} {r s : Registry}
    (h : rows.foldlM step r = .ok s) : Grows r s := by
  induction rows generalizing r with
  | nil =>
    cases h
    exact .refl _
  | cons row rows ih =>
    rw [List.foldlM_cons] at h
    obtain ⟨next, hnext, hrest⟩ := exists_of_bind_eq_ok h
    exact (hstep hnext).trans (ih hrest)

theorem grows_of_registerMultiple {d : Dimension} {system : UnitSystem} {one : Decimal}
    {r s : Registry} {row : MultipleRow} (h : registerMultiple d system one r row = .ok s) :
    Grows r s := by
  obtain ⟨ratio, -, h⟩ := exists_of_bind_eq_ok h
  cases h
  exact .call r (.register _)

theorem grows_of_registerDerived {d : Dimension} {r s : Registry} {row : DerivedRow}
    (h : registerDerived d r row = .ok s) : Grows r s := by
  unfold registerDerived at h
  split at h
  · cases h
  · obtain ⟨ratio, -, h⟩ := exists_of_bind_eq_ok h
    obtain ⟨length, -, h⟩ := exists_of_bind_eq_ok h
    cases h
    exact .call r (.register _)

theorem grows_of_addAliases (spellings : List (String × String)) (r : Registry) :
    Grows r (spellings.foldl (fun r s => r.addAlias s.1 s.2) r) := by
  induction spellings generalizing r with
  | nil => exact .refl r
  | cons s spellings ih => exact (Grows.call r (.addAlias s.1 s.2)).trans (ih _)

theorem grows_of_build {r : Registry} (h : build = .ok r) : Grows empty r := by
  obtain ⟨metricLength, hmetricLength, h⟩ := exists_of_bind_eq_ok h
  obtain ⟨length, hlength, h⟩ := exists_of_bind_eq_ok h
  obtain ⟨area, harea, h⟩ := exists_of_bind_eq_ok h
  obtain ⟨volume, hvolume, h⟩ := exists_of_bind_eq_ok h
  obtain ⟨metricWeight, hmetricWeight, h⟩ := exists_of_bind_eq_ok h
  obtain ⟨weight, hweight, h⟩ := exists_of_bind_eq_ok h
  cases h
  exact (grows_of_foldlM grows_of_registerMultiple hmetricLength).trans <|
    (grows_of_foldlM grows_of_registerMultiple hlength).trans <|
    (grows_of_foldlM grows_of_registerDerived harea).trans <|
    (grows_of_foldlM grows_of_registerDerived hvolume).trans <|
    (grows_of_foldlM grows_of_registerMultiple hmetricWeight).trans <|
    (grows_of_foldlM grows_of_registerMultiple hweight).trans <|
    (Grows.call weight (.register each)).trans (grows_of_addAliases spellings _)

/-- The built-in registry is built by calls, from whatever rows its tables have. -/
theorem exists_ofCalls_builtin : ∃ calls, builtin = ofCalls calls := by
  unfold builtin
  cases h : build with
  | ok r => exact grows_of_build h
  | error _ => exact ⟨[], rfl⟩

/-- No unit of the built-in registry is lost or listed twice. -/
theorem builtin_consistent : IsFiled builtin ∧ IsGrouped builtin := by
  obtain ⟨calls, h⟩ := exists_ofCalls_builtin
  rw [h]
  exact ⟨(records_ofCalls calls).isFiled, (records_ofCalls calls).isGrouped⟩

end UnitLedger.Registry
