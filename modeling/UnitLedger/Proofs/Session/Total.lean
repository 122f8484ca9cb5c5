import UnitLedger.Proofs.Amount
import UnitLedger.Proofs.Quantity.Count
import UnitLedger.Session
set_option autoImplicit false

/-! # Running totals

A session that stores a value and adds further values to it holds an integer at every step.  Each
step rounds once and adds without rounding, so each moves the total away from the exact sum by one
half of a base unit at most (`Within.addValue`), and a run by as many halves as it has steps
(`run_postings_within`).
-/

namespace UnitLedger

open Registry Session

/-- A finite value in a unit of the dimension `d`, with the factor that the tables define for the
unit. -/
structure Posting (d : Dimension) where
  value : Binary64.Finite
  symbol : String
  unit : MeasureUnit
  factor : Rat
  found : builtin.find? symbol = some unit
  dimension_eq : unit.dimension = d
  factor_exact : exactFactor? unit.symbol = some factor

namespace Posting

variable {d : Dimension}

/-- The exact number of base units that are posted. -/
def amount (p : Posting d) : Rat := p.value.writtenValue * p.factor

/-- The step that adds the value to what is stored. -/
def addStep (p : Posting d) : Step := .addValue (.finite p.value) p.symbol

/-- The steps that store the first value and add the others, with the dimension given by name. -/
def steps (dimension : String) (first : Posting d) (rest : List (Posting d)) : List Step :=
  .store dimension (.finite first.value) first.symbol :: rest.map addStep

theorem factor_pos (p : Posting d) : 0 < p.factor :=
  exactFactor_pos (mem_units_of_find? p.found) p.factor_exact

/-- What a posting is stored as is within one half of its amount. -/
theorem stored_near (p : Posting d) {q : StoredQuantity}
    (h : StoredQuantity.ofValue d (.finite p.value) p.symbol = .ok q) :
    q.dimension = d ∧ |q.baseValue.toInt - p.amount| ≤ 1 / 2 :=
  StoredQuantity.ofValue_near p.found p.dimension_eq p.factor_exact h

end Posting

namespace Session

theorem eq_ok_of_attempt {α : Type} {r : Except UnitError α} {a : α} (h : attempt r = .ok a) :
    r = .ok a := by
  cases r with
  | error e => cases h
  | ok b =>
    cases h
    rfl

theorem run_cons (s : Session) (t : Step) (rest : List Step) :
    s.run (t :: rest) = (s.after t).run rest := rfl

/-- No step of a run fails. -/
def Succeeds (s : Session) (steps : List Step) : Prop :=
  ∀ answer ∈ s.answers steps, answer.isOk = true

/-- A run succeeds when its first step does and so do the others after it. -/
theorem Succeeds.cons {s : Session} {t : Step} {rest : List Step} (h : s.Succeeds (t :: rest)) :
    ∃ next answer, s.step t = .ok (next, answer) ∧ s.after t = next ∧ next.Succeeds rest := by
  rw [Succeeds, answers, List.forall_mem_cons] at h
  obtain ⟨hfirst, hrest⟩ := h
  cases hstep : s.step t with
  | error e =>
    rw [hstep] at hfirst
    cases hfirst
  | ok outcome =>
    have hafter : s.after t = outcome.1 := by
      rw [after, hstep]
    rw [hafter] at hrest
    exact ⟨outcome.1, outcome.2, rfl, hafter, hrest⟩

/-- The session holds a quantity of the dimension that is within `k` halves of a base unit of the
amount `total`. -/
def Within (d : Dimension) (total : Rat) (k : Nat) (s : Session) : Prop :=
  ∃ q, s.stored = some q ∧ q.dimension = d ∧ |q.baseValue.toInt - total| ≤ k / 2

variable {d : Dimension} {s next : Session} {answer : Answer} {total : Rat} {k : Nat}

/-- Storing a value leaves a quantity within one half of it. -/
theorem within_of_store {dimension : String} (hd : Dimension.ofText dimension = .ok d)
    (p : Posting d)
    (h : s.step (.store dimension (.finite p.value) p.symbol) = .ok (next, answer)) :
    next.Within d p.amount 1 := by
  obtain ⟨e, he, hstore⟩ := exists_of_bind_eq_ok h
  obtain ⟨q, hq, hnext⟩ := exists_of_bind_eq_ok hstore
  obtain rfl := Except.ok.inj (hd.symm.trans (eq_ok_of_attempt he))
  obtain ⟨hdimension, hnear⟩ := p.stored_near (eq_ok_of_attempt hq)
  cases hnext
  refine ⟨q, rfl, hdimension, ?_⟩
  rwa [Nat.cast_one]

/-- Adding a value moves the total away from the exact one by another half. -/
theorem Within.addValue (hs : s.Within d total k) (p : Posting d)
    (h : s.step p.addStep = .ok (next, answer)) : next.Within d (total + p.amount) (k + 1) := by
  obtain ⟨q, hstored, rfl, hnear⟩ := hs
  obtain ⟨held, hheld, hadd⟩ := exists_of_bind_eq_ok h
  obtain ⟨r, hr, hsum⟩ := exists_of_bind_eq_ok hadd
  obtain ⟨sum, hchecked, hnext⟩ := exists_of_bind_eq_ok hsum
  rw [hstored] at hheld
  obtain rfl := Except.ok.inj hheld
  obtain ⟨-, hposted⟩ := p.stored_near (eq_ok_of_attempt hr)
  -- the sum is not rounded
  obtain ⟨-, hdimension, hbase⟩ :=
    StoredQuantity.checkedAdd_eq_ok_iff.1 (eq_ok_of_attempt hchecked)
  cases hnext
  refine ⟨sum, rfl, hdimension, ?_⟩
  have hsplit : (sum.baseValue.toInt - (total + p.amount) : Rat) =
      (q.baseValue.toInt - total) + (r.baseValue.toInt - p.amount) := by
    rw [hbase]
    push_cast
    ring
  have htriangle := abs_add_le (q.baseValue.toInt - total) (r.baseValue.toInt - p.amount)
  rw [hsplit]
  push_cast
  linarith

/-- What holds after some steps is carried on by a run of further ones. -/
theorem Within.run {postings : List (Posting d)} (hs : s.Within d total k)
    (h : s.Succeeds (postings.map Posting.addStep)) :
    (s.run (postings.map Posting.addStep)).Within d
      (total + (postings.map Posting.amount).sum) (k + postings.length) := by
  induction postings generalizing s total k with
  | nil =>
    rw [List.map_nil, List.sum_nil, add_zero]
    exact hs
  | cons p rest ih =>
    obtain ⟨next, answer, hstep, hafter, hrest⟩ := h.cons
    have hnext := ih (hs.addValue p hstep) hrest
    rw [List.map_cons, List.map_cons, run_cons, hafter, List.sum_cons, ← add_assoc,
      List.length_cons, Nat.add_comm rest.length, ← Nat.add_assoc]
    exact hnext

/-- A running total drifts by no more than half a base unit per entry: after a value has been stored
and others of its dimension have been added, all with success, the stored integer is within as many
halves of the exact sum as there are entries.  A single entry is within one half of a base unit in
its own unit, too. -/
theorem run_postings_within {dimension : String} (hd : Dimension.ofText dimension = .ok d)
    (s : Session) (first : Posting d) (rest : List (Posting d))
    (h : s.Succeeds (Posting.steps dimension first rest)) :
    ∃ q : StoredQuantity,
      (s.run (Posting.steps dimension first rest)).stored = some q ∧ q.dimension = d ∧
      |q.baseValue.toInt - ((first :: rest).map Posting.amount).sum| ≤ (rest.length + 1) / 2 ∧
      (rest = [] →
        |q.baseValue.toInt / first.factor - first.value.writtenValue| ≤ 1 / 2 / first.factor) := by
  obtain ⟨next, answer, hstep, hafter, hrest⟩ := h.cons
  obtain ⟨q, hstored, hdimension, hnear⟩ := (within_of_store hd first hstep).run hrest
  refine ⟨q, ?_, hdimension, ?_, ?_⟩
  · rw [Posting.steps, run_cons, hafter]
    exact hstored
  · rw [List.map_cons, List.sum_cons]
    push_cast at hnear
    rwa [add_comm (1 : Rat)] at hnear
  · rintro rfl
    have hpos := first.factor_pos
    have hscaled : (q.baseValue.toInt / first.factor - first.value.writtenValue : Rat) =
        (q.baseValue.toInt - first.amount) / first.factor := by
      rw [Posting.amount, sub_div, mul_div_cancel_right₀ _ hpos.ne']
    rw [List.map_nil, List.sum_nil, add_zero, List.length_nil, Nat.add_zero, Nat.cast_one] at hnear
    rw [hscaled, abs_div, abs_of_pos hpos]
    exact div_le_div_of_nonneg_right hnear hpos.le

/-- A hundred and fifty thousand grains: 9719836.5 milligrams, of which 9719836 are stored. -/
def grainsPosted : Posting .weight where
  value := ⟨false, 5153960755200000, -35, by decide⟩
  symbol := "gr"
  unit := ⟨"gr", "grain", .weight, .imperial, Decimal.grainFactor⟩
  factor := 6479891 / 100000
  found := StoredQuantity.find?_grain
  dimension_eq := rfl
  factor_exact := grain_exactFactor

/-- Minus fifty pounds: -22679618.5 milligrams, of which -22679619 are stored. -/
def poundsPosted : Posting .weight where
  value := ⟨true, 7036874417766400, -47, by decide⟩
  symbol := "lb"
  unit := ⟨"lb", "pound", .weight, .imperial, ⟨45359237, -2, 50, by decide⟩⟩
  factor := 45359237 / 100
  found := by decide +kernel
  dimension_eq := rfl
  factor_exact := by decide +kernel

/-- Three entries that drift the same way, by three halves of a milligram. -/
theorem run_postings_within_weights :
    Dimension.ofText "weight" = .ok .weight ∧
      initial.Succeeds (Posting.steps "weight" grainsPosted [poundsPosted, grainsPosted]) ∧
      (initial.run (Posting.steps "weight" grainsPosted [poundsPosted, grainsPosted])).stored =
        some ⟨-3239947, .weight⟩ ∧
      ([grainsPosted, poundsPosted, grainsPosted].map Posting.amount).sum = -3239947 + 3 / 2 ∧
      ∃ q : StoredQuantity,
        (initial.run (Posting.steps "weight" grainsPosted [poundsPosted, grainsPosted])).stored =
          some q ∧ q.dimension = .weight ∧
        |q.baseValue.toInt - ([grainsPosted, poundsPosted, grainsPosted].map Posting.amount).sum| ≤
          (([poundsPosted, grainsPosted].length : Nat) + 1) / 2 ∧
        ([poundsPosted, grainsPosted] = [] →
          |q.baseValue.toInt / grainsPosted.factor - grainsPosted.value.writtenValue| ≤
            1 / 2 / grainsPosted.factor) := by
  -- one evaluation of the tables for both facts about the run
  have hrun :
      (∀ answer ∈ initial.answers (Posting.steps "weight" grainsPosted
        [poundsPosted, grainsPosted]), answer.isOk = true) ∧
      (initial.run (Posting.steps "weight" grainsPosted [poundsPosted, grainsPosted])).stored =
        some ⟨-3239947, .weight⟩ := by
    decide +kernel
  exact ⟨by decide, hrun.1, hrun.2, by decide +kernel,
    run_postings_within (by decide) initial grainsPosted [poundsPosted, grainsPosted] hrun.1⟩

end Session

end UnitLedger
