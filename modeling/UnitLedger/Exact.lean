import UnitLedger.Binary64.Printer
import UnitLedger.Decimal.Basic
set_option autoImplicit false

/-! # Exact values

Rounding and cutting of rational numbers, which has no precision to run out of, and the rational
number that is written for a double.  `abs_halfAway_sub_le` says that rounding moves a number by one
half at most, and `halfAway_neg` that it does not tell the signs apart.
-/

namespace UnitLedger.Exact

/-- The integer nearest to `x`, a half going away from zero. -/
def halfAway (x : Rat) : Int :=
  if x < 0 then -(-x + 1 / 2).floor else (x + 1 / 2).floor

/-- The multiple of `10 ^ -places` nearest to `x`, a half going away from zero. -/
def toPlaces (x : Rat) (places : Nat) : Rat :=
  halfAway (x * 10 ^ places) / 10 ^ places

/-- The integer next to `x` on the side of zero. -/
def towardZero (x : Rat) : Int :=
  if x < 0 then -(-x).floor else x.floor

/-- `x` cut to a multiple of `10 ^ -places`, so never away from zero. -/
def cutPlaces (x : Rat) (places : Nat) : Rat :=
  towardZero (x * 10 ^ places) / 10 ^ places

@[simp] theorem halfAway_intCast (n : Int) : halfAway n = n := by
  have hfloor : ∀ m : Int, ((m : Rat) + 1 / 2).floor = m := by
    intro m
    apply Int.le_antisymm
    · have hle := Rat.floor_le ((m : Rat) + 1 / 2)
      have hlt : (((m : Rat) + 1 / 2).floor : Rat) < ((m + 1 : Int) : Rat) := by
        rw [Rat.intCast_add]
        grind
      have := Rat.intCast_lt_intCast.1 hlt
      omega
    · rw [Rat.le_floor_iff]
      grind
  unfold halfAway
  split
  · rw [← Rat.intCast_neg, hfloor, Int.neg_neg]
  · exact hfloor n

theorem halfAway_neg (x : Rat) : halfAway (-x) = -halfAway x := by
  by_cases hzero : x = 0
  · have hhalf : halfAway 0 = 0 := halfAway_intCast 0
    rw [hzero, Rat.neg_zero, hhalf, Int.neg_zero]
  · unfold halfAway
    by_cases hneg : x < 0
    · have hpos : ¬ -x < 0 := by grind
      rw [if_pos hneg, if_neg hpos, Int.neg_neg]
    · have hpos : -x < 0 := by grind
      rw [if_neg hneg, if_pos hpos, Rat.neg_neg]

/-- Rounding moves a number by one half at most. -/
theorem abs_halfAway_sub_le (x : Rat) : (halfAway x - x).abs ≤ 1 / 2 := by
  have hbound : ∀ y : Rat, ((y + 1 / 2).floor : Rat) ≤ y + 1 / 2 ∧
      y - 1 / 2 ≤ (y + 1 / 2).floor := by
    intro y
    have hle := Rat.floor_le (y + 1 / 2)
    have hlt := Rat.lt_floor_add_one (y + 1 / 2)
    rw [Rat.intCast_add] at hlt
    grind
  unfold halfAway Rat.abs
  by_cases hneg : x < 0
  · rw [if_pos hneg, Rat.intCast_neg]
    have := hbound (-x)
    split <;> grind
  · rw [if_neg hneg]
    have := hbound x
    split <;> grind

end UnitLedger.Exact

namespace UnitLedger.Binary64.Finite

/-- The value of the decimal that is written for `x`. -/
def writtenValue (x : Finite) : Rat :=
  (if x.negative then -1 else 1) * x.written.digits * (10 : Rat) ^ x.written.exponent

end UnitLedger.Binary64.Finite
