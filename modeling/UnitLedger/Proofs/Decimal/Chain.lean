import UnitLedger.Decimal.Reader
import UnitLedger.Proofs.Decimal.Places
set_option autoImplicit false

/-! # Chains of arithmetic

An accumulator is read from a text and taken through a list of steps, whose operands are read from
texts or are the accumulator itself.  The precision it carries is part of its state: the floor, and
with it both roundings, leave it lower than the working precision, and a step with the accumulator
as its only operand is carried out at what is left.  A chain whose exact results all have at most
fifty digits stays exact precisely when each of these steps has room for its exact result
(`staysExact_iff_roomy`), and so always when every operand is read (`staysExact_of_fresh`).
-/

namespace UnitLedger.Decimal

open Numeral Exact

/-! ## Chains -/

/-- A number together with the text it was read from. -/
structure ReadNumber where
  text : String
  value : Decimal
  reads : ofText text = .ok value

/-- The second operand of a step. -/
inductive Operand where
  | read (number : ReadNumber)
  | accumulator

namespace Operand

/-- The operand of a step on `x`. -/
def value (x : Decimal) : Operand → Decimal
  | read number => number.value
  | accumulator => x

/-- The exact operand of a step on `r`. -/
def exact (r : Rat) : Operand → Rat
  | read number => number.value.toRat
  | accumulator => r

theorem toRat_value (x : Decimal) (operand : Operand) :
    (operand.value x).toRat = operand.exact x.toRat := by
  cases operand <;> rfl

end Operand

/-- The operations of two operands. -/
inductive Operation where
  | add
  | sub
  | mul

namespace Operation

def apply : Operation → Decimal → Decimal → Decimal
  | add => Decimal.add
  | sub => Decimal.sub
  | mul => Decimal.mul

def exact : Operation → Rat → Rat → Rat
  | add => (· + ·)
  | sub => (· - ·)
  | mul => (· * ·)

end Operation

/-- A step of a chain. -/
inductive Step where
  | combine (operation : Operation) (operand : Operand)
  | pow (n : Nat)
  | neg
  | abs
  | floor
  | roundHalfAway
  | roundPlaces (places : Nat)

namespace Step

/-- What a step makes of the accumulator, by arithmetic that bounds no exponent.  So rounding to
places is `Decimal.roundPlaces` where the exponent of the scaled number is in its word
(`scaleUp_eq`). -/
def apply (x : Decimal) : Step → Except Fault Decimal
  | combine operation operand => .ok (operation.apply x (operand.value x))
  | pow n => .ok (x.pow n)
  | neg => .ok x.neg
  | abs => .ok x.abs
  | floor => .ok x.floor
  | roundHalfAway => .ok x.roundHalfAway
  | roundPlaces places => (x.mul ((ofInt 10).pow places)).roundScaled places

/-- What a step makes of a rational number. -/
def exact (r : Rat) : Step → Rat
  | combine operation operand => operation.exact r (operand.exact r)
  | pow n => r ^ n
  | neg => -r
  | abs => |r|
  | floor => ⌊r⌋
  | roundHalfAway => halfAway r
  | roundPlaces places => toPlaces r places

/-- The exact result has no more digits than the working precision; with a power, neither have the
powers before it. -/
def Fits (r : Rat) : Step → Prop
  | pow n => ∀ k ≤ n, Keeps workingPrecision (r ^ k)
  | step => Keeps workingPrecision (step.exact r)

/-- The precision that a step on `x` is carried out at: the larger one of its operands. -/
def room (x : Decimal) : Step → Nat
  | combine _ operand => max x.precision (operand.value x).precision
  | _ => workingPrecision

/-- The accumulator is not the second operand. -/
def IsFresh : Step → Prop
  | combine _ .accumulator => False
  | _ => True

end Step

/-- Every exact result of a chain that starts at `r` has no more digits than the working
precision. -/
def AllFit : Rat → List Step → Prop
  | _, [] => True
  | r, step :: steps => step.Fits r ∧ AllFit (step.exact r) steps

/-- Every step of a chain that starts at `x` succeeds, and the accumulator has the exact value that
the chain gives from `r`. -/
def StaysExact : Decimal → Rat → List Step → Prop
  | _, _, [] => True
  | x, r, step :: steps =>
    ∃ y, step.apply x = .ok y ∧ y.toRat = step.exact r ∧ StaysExact y (step.exact r) steps

/-- Every step of a chain that starts at `x` has room for its exact result. -/
def Roomy : Decimal → List Step → Prop
  | _, [] => True
  | x, step :: steps =>
    Keeps (step.room x) (step.exact x.toRat) ∧ ∀ y, step.apply x = .ok y → Roomy y steps

/-! ## The invariant -/

/-- The accumulator has no more digits than its precision keeps, and no more than the working
precision, which its own never exceeds. -/
structure Settled (x : Decimal) : Prop where
  precision_le : x.precision ≤ workingPrecision
  keepsOwn : Keeps x.precision x.toRat
  keepsWorking : Keeps workingPrecision x.toRat

theorem Settled.length_le {x : Decimal} (h : x.Settled) : x.length ≤ workingPrecision :=
  (length_le_iff_keeps x (by decide)).2 h.keepsWorking

theorem Settled.length_le_precision {x : Decimal} (h : x.Settled) :
    x.precision = 0 ∨ x.length ≤ x.precision := by
  by_cases hp : x.precision = 0
  · exact Or.inl hp
  · exact Or.inr ((length_le_iff_keeps x hp).2 h.keepsOwn)

/-- At the working precision there is one thing to say. -/
theorem settled_of_precision {x : Decimal} (hp : x.precision = workingPrecision)
    (h : Keeps workingPrecision x.toRat) : x.Settled :=
  ⟨hp.le, by rwa [hp], h⟩

/-- What has just been rounded to the working precision. -/
theorem settled_rounded (s e : Int) : (rounded s e workingPrecision).Settled :=
  settled_of_precision (rounded_precision s e workingPrecision)
    ((length_le_iff_keeps _ (by decide)).1 (length_rounded_le s e (by decide)))

/-- Reading ends with rounding to the working precision. -/
theorem exists_rounded_of_ofText {text : String} {x : Decimal} (h : ofText text = .ok x) :
    ∃ s e, x = rounded s e workingPrecision := by
  have hpointed : ∀ {cs : List Char} {y : Decimal}, readPointed? cs = some y →
      ∃ s e, y = rounded s e workingPrecision := by
    intro cs y hy
    unfold readPointed? at hy
    dsimp only [Option.bind_eq_bind] at hy
    split at hy
    · obtain ⟨_, _, hy⟩ := Option.bind_eq_some_iff.1 hy
      obtain ⟨_, _, hy⟩ := Option.bind_eq_some_iff.1 hy
      exact ⟨_, _, (Option.some_inj.1 hy).symm⟩
    · obtain ⟨_, _, hy⟩ := Option.bind_eq_some_iff.1 hy
      obtain ⟨_, _, hy⟩ := Option.bind_eq_some_iff.1 hy
      exact ⟨_, _, (Option.some_inj.1 hy).symm⟩
  have hscaled : ∀ {mantissa digits : List Char} {y : Decimal},
      readScaled? mantissa digits = some y → ∃ s e, y = rounded s e workingPrecision := by
    intro mantissa digits y hy
    obtain ⟨_, _, hy⟩ := Option.bind_eq_some_iff.1 hy
    obtain ⟨_, _, hy⟩ := Option.bind_eq_some_iff.1 hy
    exact ⟨_, _, (Option.some_inj.1 hy).symm⟩
  unfold ofText at h
  dsimp only at h
  split at h
  · next y hy =>
    cases h
    unfold read? at hy
    split at hy
    · exact hpointed hy
    · split at hy
      · exact hpointed hy
      · exact hscaled hy
  · cases h

theorem ReadNumber.precision_eq (number : ReadNumber) :
    number.value.precision = workingPrecision := by
  obtain ⟨s, e, heq⟩ := exists_rounded_of_ofText number.reads
  rw [heq, rounded_precision]

theorem ReadNumber.settled (number : ReadNumber) : number.value.Settled := by
  obtain ⟨s, e, heq⟩ := exists_rounded_of_ofText number.reads
  rw [heq]
  exact settled_rounded s e

/-! ## Steps with two operands -/

@[simp] theorem Operation.apply_precision (operation : Operation) (x y : Decimal) :
    (operation.apply x y).precision = max x.precision y.precision := by
  cases operation with
  | add => exact add_precision x y
  | sub => exact sum_precision _ _ _ _ _
  | mul => exact mul_precision x y

theorem Operation.toRat_apply {operation : Operation} {x y : Decimal}
    (h : Keeps (max x.precision y.precision) (operation.exact x.toRat y.toRat)) :
    (operation.apply x y).toRat = operation.exact x.toRat y.toRat := by
  cases operation with
  | add => exact toRat_add h
  | sub => exact toRat_sub h
  | mul => exact toRat_mul_of_keeps h

/-- Combined with itself a number has no more digits than its precision, whatever is lost. -/
theorem Operation.length_apply_self_le (operation : Operation) {x : Decimal}
    (hp : x.precision ≠ 0) : (operation.apply x x).length ≤ x.precision := by
  have hsum : ∀ t : Int, (t = 0 ↔ x.significand = 0) →
      (sum x.significand x.exponent t x.exponent x.precision).length ≤ x.precision := by
    intro t ht
    unfold sum
    by_cases hzero : x.significand = 0
    · rw [if_pos hzero, ht.2 hzero, ofParts_zero, length, Int.natAbs_zero, digitCount_zero]
      exact Nat.zero_le _
    · rw [if_neg hzero, if_neg (mt ht.1 hzero), if_pos rfl]
      exact length_rounded_le _ _ hp
  cases operation with
  | add =>
    show (sum _ _ _ _ _).length ≤ _
    rw [Nat.max_self]
    exact hsum _ Iff.rfl
  | sub =>
    show (sum _ _ _ _ _).length ≤ _
    rw [Nat.max_self]
    exact hsum _ Int.neg_eq_zero
  | mul =>
    show (rounded _ _ _).length ≤ _
    rw [Nat.max_self]
    exact length_rounded_le _ _ hp

/-! ## Floor and rounding -/

/-- The floor keeps as many digits as it has left. -/
theorem keeps_floor {x : Decimal} (hx : x.Settled) : Keeps x.floor.precision x.floor.toRat := by
  unfold floor
  split
  · exact hx.keepsOwn
  split
  · rw [ofParts_precision]
    exact Or.inl rfl
  · next hneg _ =>
    rw [cut_eq, ofParts_precision, toRat_ofParts]
    by_cases hp : (x.precision + x.exponent).toNat = 0
    · exact Or.inl hp
    · apply keeps_of_natAbs_le_pow hp
      have hlen := (digitCount_le_iff _ _).1 (hx.length_le_precision.resolve_left (by omega))
      obtain ⟨k, hk⟩ : ∃ k : Nat, (-x.exponent).toNat = k := ⟨_, rfl⟩
      have hsplit : x.precision = (x.precision + x.exponent).toNat + k := by omega
      have hcast : (10 : Int) ^ k = ((10 ^ k : Nat) : Int) := by simp
      rw [hsplit, Nat.pow_add, ← Nat.div_lt_iff_lt_mul (Nat.pow_pos (by decide))] at hlen
      have hhi : (x.significand.tdiv (10 ^ k)).natAbs = x.significand.natAbs / 10 ^ k := by
        rw [Int.natAbs_tdiv, hcast, Int.natAbs_natCast]
        rfl
      rw [hk]
      split <;> omega

namespace Settled

variable {x : Decimal} (hx : x.Settled)
include hx

theorem neg : x.neg.Settled := by
  refine ⟨hx.precision_le, ?_, ?_⟩
  · rw [toRat_neg]
    exact hx.keepsOwn.neg
  · rw [toRat_neg]
    exact hx.keepsWorking.neg

theorem abs : x.abs.Settled := by
  unfold Decimal.abs
  split
  · exact hx.neg
  · exact hx

theorem floor (hfit : Keeps workingPrecision (⌊x.toRat⌋ : Rat)) : x.floor.Settled :=
  ⟨(floor_precision_le x).trans hx.precision_le, keeps_floor hx, by rwa [toRat_floor]⟩

theorem toRat_roundHalfAway : x.roundHalfAway.toRat = halfAway x.toRat :=
  Decimal.toRat_roundHalfAway hx.length_le hx.length_le_precision

/-- Rounding ends with the floor of the magnitude or with one more, which is at the working
precision. -/
theorem roundHalfAway (hfit : Keeps workingPrecision (halfAway x.toRat : Rat)) :
    x.roundHalfAway.Settled := by
  have hvalue := hx.toRat_roundHalfAway
  have hmost := roundHalfAway_precision_le x
  rw [Nat.max_eq_right hx.precision_le] at hmost
  refine ⟨hmost, ?_, by rwa [hvalue]⟩
  have hdown := keeps_floor hx.abs
  have hup : (x.abs.floor.add (ofInt 1)).precision = workingPrecision := by
    rw [add_precision, ofInt_precision]
    exact Nat.max_eq_right ((floor_precision_le _).trans hx.abs.precision_le)
  rw [← hvalue] at hfit
  revert hfit
  have hneg : ∀ y : Decimal, y.neg.precision = y.precision := fun _ => rfl
  unfold Decimal.roundHalfAway
  dsimp only
  split <;> split
  · rw [hneg, hup]
    exact id
  · rw [hneg, toRat_neg]
    exact fun _ => hdown.neg
  · rw [hup]
    exact id
  · exact fun _ => hdown

/-- Scaling up only moves the point. -/
theorem toRat_scaled (places : Nat) :
    (x.mul ((ofInt 10).pow places)).toRat = x.toRat * 10 ^ places := by
  obtain ⟨hscale, hprec⟩ := pow_ten places
  rw [toRat_mul_of_keeps, hscale]
  have hmoved := hx.keepsWorking.mul_zpow places
  rwa [hscale, hprec, Nat.max_eq_right hx.precision_le, ← zpow_natCast]

/-- Rounding to places is exact when its result has few enough digits. -/
theorem exists_roundScaled {places : Nat}
    (hfit : Keeps workingPrecision (toPlaces x.toRat places)) :
    ∃ y, (x.mul ((ofInt 10).pow places)).roundScaled places = .ok y ∧
      y.toRat = toPlaces x.toRat places ∧ y.precision = workingPrecision := by
  obtain ⟨hprec, hlen⟩ := scaled_digits hx.precision_le places
  have hround := @roundScaled_of_keeps _ hprec hlen places
  rw [hx.toRat_scaled] at hround
  exact hround hfit

end Settled

/-! ## One step -/

namespace Step

variable {x : Decimal} {step : Step}

/-- The exact result of a step that fits is among what fits. -/
theorem keeps_exact {r : Rat} (h : step.Fits r) : Keeps workingPrecision (step.exact r) := by
  cases step with
  | pow n => exact h n (Nat.le_refl n)
  | _ => exact h

/-- A step with room for its exact result gives that result, and the invariant is preserved. -/
theorem exists_apply (hx : x.Settled) (hfit : step.Fits x.toRat)
    (hroom : Keeps (step.room x) (step.exact x.toRat)) :
    ∃ y, step.apply x = .ok y ∧ y.toRat = step.exact x.toRat ∧ y.Settled := by
  cases step with
  | combine operation operand =>
    have hmax : max x.precision (operand.value x).precision ≤ workingPrecision := by
      apply Nat.max_le.2
      cases operand with
      | read number => exact ⟨hx.precision_le, number.settled.precision_le⟩
      | accumulator => exact ⟨hx.precision_le, hx.precision_le⟩
    have hkeeps : Keeps (max x.precision (operand.value x).precision)
        (operation.exact x.toRat (operand.exact x.toRat)) := hroom
    have hvalue : (operation.apply x (operand.value x)).toRat =
        operation.exact x.toRat (operand.exact x.toRat) := by
      rw [← operand.toRat_value] at hkeeps ⊢
      exact Operation.toRat_apply hkeeps
    refine ⟨_, rfl, hvalue, ?_, ?_, ?_⟩
    · rwa [Operation.apply_precision]
    · rw [Operation.apply_precision, hvalue]
      exact hkeeps
    · rw [hvalue]
      exact hfit
  | pow n =>
    obtain ⟨hvalue, hprec⟩ := toRat_pow hx.precision_le hfit
    exact ⟨_, rfl, hvalue, settled_of_precision hprec (by rw [hvalue]; exact keeps_exact hfit)⟩
  | neg => exact ⟨_, rfl, toRat_neg x, hx.neg⟩
  | abs => exact ⟨_, rfl, toRat_abs x, hx.abs⟩
  | floor => exact ⟨_, rfl, toRat_floor x, hx.floor hfit⟩
  | roundHalfAway => exact ⟨_, rfl, hx.toRat_roundHalfAway, hx.roundHalfAway hfit⟩
  | roundPlaces places =>
    obtain ⟨y, hy, hvalue, hprec⟩ := hx.exists_roundScaled hfit
    exact ⟨y, hy, hvalue, settled_of_precision hprec (by rw [hvalue]; exact hfit)⟩

/-- A step that gives its exact result has room for it. -/
theorem keeps_room_of_exact (hx : x.Settled) (hfit : step.Fits x.toRat) {y : Decimal}
    (hy : step.apply x = .ok y) (hexact : y.toRat = step.exact x.toRat) :
    Keeps (step.room x) (step.exact x.toRat) := by
  cases step with
  | combine operation operand =>
    cases operand with
    | read number =>
      show Keeps (max x.precision number.value.precision) _
      rw [number.precision_eq, Nat.max_eq_right hx.precision_le]
      exact hfit
    | accumulator =>
      show Keeps (max x.precision x.precision) _
      rw [Nat.max_self]
      by_cases hp : x.precision = 0
      · exact Or.inl hp
      · obtain rfl := Except.ok.inj hy
        rw [← hexact, ← length_le_iff_keeps _ hp]
        exact operation.length_apply_self_le hp
  | _ => exact keeps_exact hfit

/-- A step with an operand that was read is carried out at the working precision. -/
theorem room_of_fresh (hx : x.Settled) (h : step.IsFresh) : step.room x = workingPrecision := by
  cases step with
  | combine operation operand =>
    cases operand with
    | read number =>
      show max x.precision number.value.precision = workingPrecision
      rw [number.precision_eq, Nat.max_eq_right hx.precision_le]
    | accumulator => exact absurd h id
  | _ => rfl

end Step

/-! ## Whole chains -/

theorem staysExact_iff_roomy_of_settled {x : Decimal} (hx : x.Settled) {steps : List Step}
    (hfit : AllFit x.toRat steps) : StaysExact x x.toRat steps ↔ Roomy x steps := by
  induction steps generalizing x with
  | nil => exact Iff.rfl
  | cons step steps ih =>
    obtain ⟨hstep, hrest⟩ := hfit
    constructor
    · rintro ⟨y, hy, hexact, hstays⟩
      have hroom := step.keeps_room_of_exact hx hstep hy hexact
      obtain ⟨z, hz, -, hsettled⟩ := Step.exists_apply hx hstep hroom
      obtain rfl : z = y := Except.ok.inj (hz.symm.trans hy)
      refine ⟨hroom, fun w hw => ?_⟩
      obtain rfl : z = w := Except.ok.inj (hz.symm.trans hw)
      rw [← hexact] at hrest hstays
      exact (ih hsettled hrest).1 hstays
    · rintro ⟨hroom, hroomy⟩
      obtain ⟨y, hy, hexact, hsettled⟩ := Step.exists_apply hx hstep hroom
      refine ⟨y, hy, hexact, ?_⟩
      rw [← hexact] at hrest ⊢
      exact (ih hsettled hrest).2 (hroomy y hy)

theorem roomy_of_fresh {x : Decimal} (hx : x.Settled) {steps : List Step}
    (hfit : AllFit x.toRat steps) (hfresh : ∀ step ∈ steps, step.IsFresh) : Roomy x steps := by
  induction steps generalizing x with
  | nil => trivial
  | cons step steps ih =>
    obtain ⟨hstep, hrest⟩ := hfit
    have hroom : Keeps (step.room x) (step.exact x.toRat) := by
      rw [step.room_of_fresh hx (hfresh step List.mem_cons_self)]
      exact step.keeps_exact hstep
    obtain ⟨y, hy, hexact, hsettled⟩ := Step.exists_apply hx hstep hroom
    refine ⟨hroom, fun z hz => ?_⟩
    obtain rfl : y = z := Except.ok.inj (hy.symm.trans hz)
    rw [← hexact] at hrest
    exact ih hsettled hrest fun s hs => hfresh s (List.mem_cons_of_mem _ hs)

/-- A chain whose exact results all have at most fifty significant digits stays exact precisely when
every step has room for its exact result at the precision it is carried out at. -/
theorem staysExact_iff_roomy (start : ReadNumber) (steps : List Step)
    (hfit : AllFit start.value.toRat steps) :
    StaysExact start.value start.value.toRat steps ↔ Roomy start.value steps :=
  staysExact_iff_roomy_of_settled start.settled hfit

/-- With operands that are read, arithmetic is exact within fifty digits over whole chains. -/
theorem staysExact_of_fresh (start : ReadNumber) (steps : List Step)
    (hfit : AllFit start.value.toRat steps) (hfresh : ∀ step ∈ steps, step.IsFresh) :
    StaysExact start.value start.value.toRat steps :=
  (staysExact_iff_roomy_of_settled start.settled hfit).2 (roomy_of_fresh start.settled hfit hfresh)

/-! ## What the floor leaves -/

/-- A number of fifty digits whose floor has one. -/
def justAboveNine : ReadNumber :=
  ⟨"9.0000000000000000000000000000000000000000000000001", ⟨9 * 10 ^ 49 + 1, -49, 50, by decide⟩,
    by decide +kernel⟩

theorem floor_justAboveNine :
    justAboveNine.value.floor = ⟨9, 0, 1, by decide⟩ ∧ (⌊justAboveNine.value.toRat⌋ : Rat) = 9 := by
  decide +kernel

/-- Squaring the floor fits fifty digits. -/
theorem allFit_justAboveNine :
    AllFit justAboveNine.value.toRat [.floor, .combine .mul .accumulator] := by
  have hfloor := floor_justAboveNine.2
  refine ⟨?_, ?_, trivial⟩
  · show Keeps workingPrecision (⌊justAboveNine.value.toRat⌋ : Rat)
    rw [hfloor]
    exact keeps_intCast_of_lt (n := 9) (by decide)
  · show Keeps workingPrecision ((⌊justAboveNine.value.toRat⌋ : Rat) * ⌊justAboveNine.value.toRat⌋)
    rw [hfloor]
    norm_num
    exact keeps_intCast_of_lt (n := 81) (by decide)

theorem staysExact_iff_roomy_just_above_nine :
    AllFit justAboveNine.value.toRat [.floor, .combine .mul .accumulator] ∧
      (StaysExact justAboveNine.value justAboveNine.value.toRat
          [.floor, .combine .mul .accumulator] ↔
        Roomy justAboveNine.value [.floor, .combine .mul .accumulator]) :=
  ⟨allFit_justAboveNine, staysExact_iff_roomy _ _ allFit_justAboveNine⟩

/-- The floor of the number is nine, at a precision of one digit; its square comes out as eighty. -/
theorem square_of_floor_not_exact :
    AllFit justAboveNine.value.toRat [.floor, .combine .mul .accumulator] ∧
      (justAboveNine.value.floor.mul justAboveNine.value.floor).toRat = 80 ∧
      ¬ StaysExact justAboveNine.value justAboveNine.value.toRat
        [.floor, .combine .mul .accumulator] := by
  obtain ⟨hfloor, hexact⟩ := floor_justAboveNine
  have hsquare : (justAboveNine.value.floor.mul justAboveNine.value.floor).toRat = 80 := by
    rw [hfloor]
    decide +kernel
  refine ⟨allFit_justAboveNine, hsquare, ?_⟩
  rintro ⟨y, hy, -, z, hz, hvalue, -⟩
  obtain rfl := Except.ok.inj hy
  obtain rfl := Except.ok.inj hz
  have heq : (justAboveNine.value.floor.mul justAboveNine.value.floor).toRat =
      (⌊justAboveNine.value.toRat⌋ : Rat) * ⌊justAboveNine.value.toRat⌋ := hvalue
  rw [hsquare, hexact] at heq
  norm_num at heq

end UnitLedger.Decimal
