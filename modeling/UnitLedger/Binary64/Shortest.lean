import UnitLedger.Binary64.Basic
set_option autoImplicit false

/-! # Shortest decimals of doubles

The decimal with the fewest digits among those that round to a given double, and of those the one
nearest to it.  The decimals that round to a magnitude form an interval, which has its ends exactly
when the significand is even; the search tries 1, 2, … 17 digits and looks on each grid at the two
neighbours of the magnitude.
-/

namespace UnitLedger.Binary64

open Numeral

/-- Which of two equally near decimals is taken. -/
inductive TieRule where
  | up
  | toEven
  deriving DecidableEq, Repr

/-- The decimals that round to a magnitude: from `low / den` to `high / den`, with the magnitude at
`mid / den`. -/
structure Interval where
  low : Nat
  mid : Nat
  high : Nat
  den : Nat
  closed : Bool
  deriving DecidableEq, Repr

namespace Interval

/-- The interval in units of `10 ^ j`. -/
def inUnits (v : Interval) (j : Int) : Interval :=
  let up := 10 ^ (-j).toNat
  ⟨v.low * up, v.mid * up, v.high * up, v.den * 10 ^ j.toNat, v.closed⟩

/-- The integer `n` lies in the interval. -/
def holds (v : Interval) (n : Nat) : Bool :=
  if v.closed then v.low ≤ n * v.den && n * v.den ≤ v.high
  else v.low < n * v.den && n * v.den < v.high

/-- The integer of the interval that is nearest to its magnitude, if one of the two integers next to
the magnitude lies in it. -/
def integer? (tie : TieRule) (v : Interval) : Option Nat :=
  let below := v.mid / v.den
  match v.holds below, v.holds (below + 1) with
  | false, false => none
  | true, false => some below
  | false, true => some (below + 1)
  | true, true =>
    match compare (2 * (v.mid % v.den)) v.den with
    | .lt => some below
    | .gt => some (below + 1)
    | .eq => some (if tie = .toEven ∧ below % 2 = 0 then below else below + 1)

/-- The exponent `k` with the magnitude below `10 ^ k` and not below `10 ^ (k - 1)`. -/
def decade (v : Interval) : Int :=
  let d : Int := (digitCount v.mid : Int) - digitCount v.den
  if v.den * 10 ^ d.toNat ≤ v.mid * 10 ^ (-d).toNat then d + 1 else d

end Interval

namespace Finite

/-- The decimals that round to `x`.  Below a power of two the next double is half as far. -/
def interval (x : Finite) : Interval :=
  let q := x.exponent - 2
  let up := 2 ^ q.toNat
  let below := if x.significand = 2 ^ 52 ∧ minExponent < x.exponent then 1 else 2
  ⟨(4 * x.significand - below) * up, 4 * x.significand * up, (4 * x.significand + 2) * up,
    2 ^ (-q).toNat, x.significand % 2 = 0⟩

/-- A magnitude in decimal: `digits × 10 ^ exponent`. -/
structure Digits where
  digits : Nat
  exponent : Int
  deriving DecidableEq, Repr

/-- The decimal without zeros at the end of its digits. -/
def Digits.strip (d : Digits) : Digits :=
  let z := trailingZeros d.digits
  ⟨d.digits / 10 ^ z, d.exponent + z⟩

/-- The magnitude of `x` itself, every digit of it. -/
def allDigits (x : Finite) : Digits :=
  ⟨x.significand * 2 ^ x.exponent.toNat * 5 ^ (-x.exponent).toNat, min x.exponent 0⟩

/-- The shortest decimal of the magnitude of `x`. -/
def shortest (x : Finite) (tie : TieRule) : Digits :=
  if x.significand = 0 then ⟨0, 0⟩
  else
    let v := x.interval
    let k := v.decade
    let attempt (n : Nat) : Option Digits :=
      let j := k - (n + 1 : Nat)
      ((v.inUnits j).integer? tie).map fun digits => ⟨digits, j⟩
    ((List.range 17).findSome? attempt |>.getD x.allDigits).strip

end Finite

end UnitLedger.Binary64
