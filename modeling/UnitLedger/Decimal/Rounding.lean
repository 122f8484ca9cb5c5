import UnitLedger.Decimal.Basic
set_option autoImplicit false

/-! # Rounding decimal numbers

A half always goes away from zero.  `roundHalfAway` rounds to an integer, `roundPlaces` to a number
of fraction digits, as long as the exponent of the scaled number has a place in its word, and
`toInt64?` takes an integer into a signed 64-bit word if it fits, which `storable?_eq_some_iff` says
exactly.
-/

namespace UnitLedger

/-- The integer as a signed 64-bit word, if it is one. -/
def storable? (n : Int) : Option Int64 :=
  if -2 ^ 63 ≤ n ∧ n < 2 ^ 63 then some (Int64.ofInt n) else none

theorem storable?_eq_some_iff (n : Int) (w : Int64) : storable? n = some w ↔ w.toInt = n := by
  unfold storable?
  constructor
  · intro h
    split at h
    · next hn =>
      rw [← Option.some.inj h]
      exact Int64.toInt_ofInt_of_le hn.1 hn.2
    · simp at h
  · intro h
    subst h
    have hlow : -2 ^ 63 ≤ w.toInt := Int64.le_toInt w
    have hhigh : w.toInt < 2 ^ 63 := Int64.toInt_lt w
    rw [if_pos ⟨hlow, hhigh⟩, Int64.ofInt_toInt]

namespace Decimal

/-- `x` rounded to the nearest integer, a half going away from zero. -/
def roundHalfAway (x : Decimal) : Decimal :=
  let magnitude := x.abs
  let whole := magnitude.floor
  let twiceFraction := (magnitude.sub whole).mul (ofInt 2)
  let nearest := if (ofInt 1).atMost twiceFraction then whole.add (ofInt 1) else whole
  if x.isNegative then nearest.neg else nearest

/-- `x × 10 ^ places`.  The exponent of a number is a signed 64-bit word.  Where the 32-bit word
`places` takes it beyond the last one, it goes on from the first. -/
def scaleUp (x : Decimal) (places : Nat) : Decimal :=
  let scaled := x.mul ((ofInt 10).pow places)
  if places < 2 ^ 32 ∧ 2 ^ 63 ≤ scaled.exponent then
    ofParts scaled.significand (scaled.exponent - 2 ^ 64) scaled.precision
  else scaled

/-- The integer nearest to `x`, a half going away from zero, divided by `10 ^ places`. -/
def roundScaled (x : Decimal) (places : Nat) : Except Fault Decimal :=
  x.roundHalfAway.div ((ofInt 10).pow places)

/-- `x` rounded to `places` fraction digits, a half going away from zero. -/
def roundPlaces (x : Decimal) (places : Nat) : Except Fault Decimal :=
  (x.scaleUp places).roundScaled places

/-- The value of `x` if it is a whole number of a signed 64-bit word.  A number of nineteen zeros or
more is none. -/
def toInt64? (x : Decimal) : Option Int64 :=
  if x.isInteger ∧ x.exponent < 19 then
    storable? (x.significand * 10 ^ x.exponent.toNat)
  else none

end Decimal

end UnitLedger
