import UnitLedger.Binary64.Basic
set_option autoImplicit false

/-! # Digit counts bounded in single precision

An upper bound for the number of digits of a natural, estimated from its leading 24 bits: their
binary logarithm is taken in single precision and rounded up.  The bound is exact for most numbers,
and just below a power of ten it counts one digit more (`digitBound_six_digits`).
`digitCount_le_digitBound` says that it never counts too few.
-/

namespace UnitLedger.Numeral

open Binary64 (floorLog2 onGrid)

/-! ## Single precision -/

/-- Exponent of the last of the 24 bits that `x` has in single precision. -/
def singleExponent (x : Rat) : Int := floorLog2 x.num.natAbs x.den - 23

/-- A number that is not negative, rounded to 24 bits; a tie goes to the even neighbour. -/
def toSingle (x : Rat) : Rat :=
  onGrid x.num.natAbs x.den (singleExponent x) * (2 : Rat) ^ singleExponent x

/-- The number of 24 bits that is next above `x`. -/
def nextSingle (x : Rat) : Rat := x + (2 : Rat) ^ singleExponent x

/-! ## Binary logarithms -/

/-- Appends to `digits` the first `count` binary digits of the logarithm of `m / 2 ^ 63`, for an `m`
of 64 bits.  Squaring a number doubles its logarithm. -/
def appendLogDigits : (count m digits : Nat) → Nat
  | 0, _, digits => digits
  | count + 1, m, digits =>
    let square := m * m / 2 ^ 63
    if square < 2 ^ 64 then appendLogDigits count square (2 * digits)
    else appendLogDigits count (square / 2) (2 * digits + 1)

/-- The binary logarithm of `n` in single precision.  Its first 48 binary digits after the point
decide the rounding. -/
def singleLog2 (n : Nat) : Rat :=
  toSingle (appendLogDigits 48 (n * 2 ^ 63 / 2 ^ n.log2) n.log2 * (2 : Rat) ^ (-48 : Int))

/-- An upper bound for the binary logarithm of `n` from its leading 24 bits. -/
def leadingLog2Bound (n : Nat) : Rat :=
  let rest := n.log2 - 23
  if rest = 0 then nextSingle (singleLog2 n)
  else nextSingle (toSingle (singleLog2 (n / 2 ^ rest + 1) + rest))

/-- An upper bound for the binary logarithm of `n`.  Of more than two words of 64 bits the first two
are taken, and the bound is widened by twice the relative precision. -/
def log2Bound (n : Nat) : Rat :=
  let words := n.log2 / 64 + 1
  if words ≤ 2 then leadingLog2Bound n
  else
    let rest := 64 * (words - 2)
    toSingle (toSingle (leadingLog2Bound (n / 2 ^ rest) + rest) * (1 + (2 : Rat) ^ (-22 : Int)))

/-! ## Digits -/

/-- The decimal logarithm of two in single precision. -/
def log10Two : Rat := 10100891 * (2 : Rat) ^ (-25 : Int)

/-- The number of digits that the bound on the logarithm allows. -/
def estimatedDigits (n : Nat) : Nat := (toSingle (log2Bound n * log10Two)).floor.toNat + 1

/-- An upper bound for the number of digits of `n`. -/
def digitBound (n : Nat) : Nat := max (digitCount n) (estimatedDigits n)

theorem digitCount_le_digitBound (n : Nat) : digitCount n ≤ digitBound n :=
  Nat.le_max_left _ _

/-- Of the numbers of six digits the bound overrates the last two. -/
theorem digitBound_six_digits : digitBound 999997 = 6 ∧ digitBound 999998 = 7 := by
  decide +kernel

end UnitLedger.Numeral
