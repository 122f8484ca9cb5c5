import UnitLedger.Numeral.Bound
set_option autoImplicit false

/-! # Decimal numbers with a working precision

A `Decimal` is `significand × 10 ^ exponent` together with the number of significant digits that
arithmetic on it keeps.  The pair of significand and exponent is unique for each value: the
significand does not end in a zero, and zero has exponent zero.  A result with too many digits is
rounded to nearest, a tie going away from zero; binary operations work at the larger of the two
precisions and their result carries it.
-/

namespace UnitLedger

open Numeral

/-- The significand ends in no zero, and zero has exponent zero. -/
def Decimal.IsNormal (significand exponent : Int) : Prop :=
  if significand = 0 then exponent = 0 else significand.natAbs % 10 ≠ 0

instance (s e : Int) : Decidable (Decimal.IsNormal s e) :=
  inferInstanceAs (Decidable (if s = 0 then e = 0 else s.natAbs % 10 ≠ 0))

/-- A decimal number in its unique normal form.  Precision zero stands for unlimited. -/
structure Decimal where
  significand : Int
  exponent : Int
  precision : Nat
  normal : Decimal.IsNormal significand exponent
  deriving DecidableEq, Repr

/-- Why a decimal could not be read or computed. -/
inductive Decimal.Fault where
  /-- The text is no number; it is kept without the blanks around it. -/
  | unreadable (text : String)
  | divisionByZero
  | outsideDomain (detail : String)
  | overflow
  deriving DecidableEq, Repr

namespace Decimal

/-- The wording of a fault. -/
def Fault.message : Fault → String
  | unreadable text => "not a number: '" ++ text ++ "'"
  | divisionByZero => "Division by zero"
  | outsideDomain detail => "outside the domain: " ++ detail
  | overflow => "Overflow: result too large"

/-! ## Normal form -/

private theorem natAbs_tdiv_pow {s : Int} {z : Nat} :
    (s.tdiv (10 ^ z)).natAbs = s.natAbs / 10 ^ z := by
  rw [Int.natAbs_tdiv, Int.natAbs_pow]
  rfl

private theorem isNormal_stripped {s e : Int} (h : s ≠ 0) :
    IsNormal (s.tdiv (10 ^ trailingZeros s.natAbs)) e := by
  have hmod := div_pow_trailingZeros_mod (Int.natAbs_ne_zero.2 h)
  rw [← natAbs_tdiv_pow] at hmod
  have hne : s.tdiv (10 ^ trailingZeros s.natAbs) ≠ 0 := by
    intro hz
    rw [hz] at hmod
    exact hmod rfl
  simpa [IsNormal, hne] using hmod

/-- The decimal of value `significand × 10 ^ exponent`. -/
def ofParts (significand exponent : Int) (precision : Nat) : Decimal :=
  if h : significand = 0 then ⟨0, 0, precision, rfl⟩
  else
    ⟨significand.tdiv (10 ^ trailingZeros significand.natAbs),
      exponent + trailingZeros significand.natAbs, precision, isNormal_stripped h⟩

@[simp] theorem ofParts_precision (s e : Int) (p : Nat) : (ofParts s e p).precision = p := by
  unfold ofParts
  split <;> rfl

@[simp] theorem ofParts_zero (e : Int) (p : Nat) : ofParts 0 e p = ⟨0, 0, p, rfl⟩ := rfl

/-- Number of significant digits. -/
def length (x : Decimal) : Nat := digitCount x.significand.natAbs

/-! ## Rounding to a number of digits -/

/-- `s = hi × 10 ^ k + lo` with both parts of the sign of `s`, as `(hi, lo)`.  The power is not
formed when it is beyond `s`. -/
def cut (s : Int) (k : Nat) : Int × Int :=
  if digitCount s.natAbs ≤ k then (0, s) else (s.tdiv (10 ^ k), s.tmod (10 ^ k))

theorem cut_eq (s : Int) (k : Nat) : cut s k = (s.tdiv (10 ^ k), s.tmod (10 ^ k)) := by
  unfold cut
  split
  · next h =>
    rw [digitCount_le_iff] at h
    have hdiv : s.tdiv (10 ^ k) = 0 := by
      rw [← Int.natAbs_eq_zero, natAbs_tdiv_pow, Nat.div_eq_of_lt h]
    have hmod := Int.tmod_add_mul_tdiv s (10 ^ k)
    rw [hdiv, Int.mul_zero, Int.add_zero] at hmod
    rw [hdiv, hmod]
  · rfl

/-- How `|lo|` compares with half of `10 ^ k`. -/
def compareHalf (lo : Int) (k : Nat) : Ordering :=
  if digitCount (2 * lo.natAbs) ≤ k then .lt else compare (2 * lo.natAbs) (10 ^ k)

theorem compareHalf_eq (lo : Int) (k : Nat) :
    compareHalf lo k = compare (2 * lo.natAbs) (10 ^ k) := by
  unfold compareHalf
  split
  · next h =>
    rw [digitCount_le_iff] at h
    exact (Nat.compare_eq_lt.2 h).symm
  · rfl

/-- What rounding `hi + lo / 10 ^ k` to the nearest integer adds to `hi`.  A tie goes away from
zero, so towards `lo` unless `hi` lies on the other side of zero. -/
def adjustment (hi lo : Int) (k : Nat) : Int :=
  match compareHalf lo k with
  | .lt => 0
  | .eq => if hi.sign = -lo.sign then 0 else lo.sign
  | .gt => lo.sign

/-- `s × 10 ^ e` rounded to `p` significant digits. -/
def rounded (s e : Int) (p : Nat) : Decimal :=
  let n := digitCount s.natAbs
  if p = 0 ∨ n ≤ p then ofParts s e p
  else
    let (hi, lo) := cut s (n - p)
    ofParts (hi + adjustment hi lo (n - p)) (e + (n - p : Nat)) p

/-- Significant digits that a number keeps when it is read or made from an integer. -/
def workingPrecision : Nat := 50

/-- The decimal of an integer. -/
def ofInt (n : Int) : Decimal := rounded n 0 workingPrecision

/-! ## Sign and order -/

def isZero (x : Decimal) : Bool := x.significand == 0

def isNegative (x : Decimal) : Bool := x.significand < 0

/-- In normal form a number is whole exactly when its exponent is not negative. -/
def isInteger (x : Decimal) : Bool := 0 ≤ x.exponent

/-- The exponent of the power of ten just above `|x|`. -/
def top (x : Decimal) : Int := x.exponent + x.length

/-- The values of two numbers in a common unit. -/
def aligned (x y : Decimal) : Int × Int :=
  let unit := min x.exponent y.exponent
  (x.significand * 10 ^ (x.exponent - unit).toNat,
    y.significand * 10 ^ (y.exponent - unit).toNat)

/-- Order of the values.  Numbers are aligned only when sign and magnitude do not decide. -/
protected def compare (x y : Decimal) : Ordering :=
  match compare x.significand.sign y.significand.sign with
  | .eq =>
    match compare x.top y.top with
    | .eq => compare (x.aligned y).1 (x.aligned y).2
    | o => if x.isNegative then o.swap else o
  | o => o

/-- The two numbers have one value, whatever their precisions. -/
def same (x y : Decimal) : Bool := x.compare y == .eq

/-- The value of `x` is not above that of `y`. -/
def atMost (x y : Decimal) : Bool := x.compare y != .gt

theorem isNormal_neg {s e : Int} (h : IsNormal s e) : IsNormal (-s) e := by
  simpa [IsNormal, Int.neg_eq_zero, Int.natAbs_neg] using h

protected def neg (x : Decimal) : Decimal :=
  ⟨-x.significand, x.exponent, x.precision, isNormal_neg x.normal⟩

protected def abs (x : Decimal) : Decimal := if x.isNegative then x.neg else x

/-! ## Product and quotient -/

protected def mul (x y : Decimal) : Decimal :=
  rounded (x.significand * y.significand) (x.exponent + y.exponent)
    (max x.precision y.precision)

/-- The number one multiplied `n` times by `x`. -/
protected def pow (x : Decimal) (n : Nat) : Decimal :=
  Nat.repeat (fun product => product.mul x) n (ofInt 1)

/-- Long division of `s` by `t` (not zero) to `p` digits, or to `p + 1` when the first digit comes
out that way, as significand and digits appended.  The last remainder is rounded, a tie going away
from zero; a quotient that comes out even before is left as it is. -/
def longDivision (s t : Int) (p : Nat) : Int × Nat :=
  let q := s.tdiv t
  let r := s.tmod t
  if r = 0 then (q, 0)
  else
    let k :=
      if q = 0 then digitCount t.natAbs + p - digitCount r.natAbs
      else p - digitCount q.natAbs
    let scaled := r * 10 ^ k
    let away := if t.natAbs ≤ 2 * (scaled.tmod t).natAbs then s.sign * t.sign else 0
    (q * 10 ^ k + scaled.tdiv t + away, k)

protected def div (x y : Decimal) : Except Fault Decimal :=
  if y.significand = 0 then .error .divisionByZero
  else
    let p := max x.precision y.precision
    let (q, k) := longDivision x.significand y.significand p
    .ok (ofParts q (x.exponent - y.exponent - k) p)

/-- The quotient of two integers. -/
def ofRatio (num den : Int) : Except Fault Decimal := (ofInt num).div (ofInt den)

/-! ## Sum and difference -/

/-- A sum with digits still to be rounded off: the value
`(head + low / 10 ^ places) × 10 ^ exponent`. -/
structure Pending where
  head : Int
  exponent : Int
  low : Int
  places : Nat
  deriving DecidableEq, Repr

namespace Pending

/-- Brings the head to `width` digits: digits beyond go to the low part, and missing ones are taken
from it while it has any. -/
def fit (x : Pending) (width : Nat) : Pending :=
  let n := digitCount x.head.natAbs
  if width < n then
    let (hi, lo) := cut x.head (n - width)
    ⟨hi, x.exponent + (n - width : Nat), x.low + lo * 10 ^ x.places, x.places + (n - width)⟩
  else if n < width ∧ x.low ≠ 0 then
    let k := min x.places (width - n)
    let (hi, lo) := cut x.low (x.places - k)
    ⟨x.head * 10 ^ k + hi, x.exponent - k, lo, x.places - k⟩
  else x

/-- Rounds the low part off. -/
def settle (x : Pending) (p : Nat) : Decimal :=
  ofParts (x.head + adjustment x.head x.low x.places) x.exponent p

end Pending

/-- `l × 10 ^ (d + e) + s × 10 ^ e` for nonzero `l` and `s`, as far as `width` digits can see it.
Of an `s` that is too small to reach the last digit only the sign is kept. -/
def overlay (l s : Int) (d : Nat) (e : Int) (p width : Nat) : Pending :=
  let ll := digitCount l.natAbs
  let ls := digitCount s.natAbs
  if l.sign ≠ s.sign ∧ ll + d ≤ ls + p then ⟨l * 10 ^ d + s, e, 0, 0⟩
  else if ls + 1 < d ∧ ls + 1 + width < ll + d then ⟨l, e + d, s.sign, d⟩
  else if p ≤ ll then
    let (hi, lo) := cut s d
    ⟨l + hi, e + d, lo, d⟩
  else if p < d + ll then
    let k := p - ll
    let (hi, lo) := cut s (d - k)
    ⟨l * 10 ^ k + hi, e + d - k, lo, d - k⟩
  else ⟨l * 10 ^ d + s, e, 0, 0⟩

/-- Sum of `l × 10 ^ (d + e)` and `s × 10 ^ e` for nonzero `l` and `s` and positive `d`.  A sum of
opposite signs keeps one digit more. -/
def sumApart (l s : Int) (d : Nat) (e : Int) (p : Nat) : Decimal :=
  if p = 0 then ofParts (l * 10 ^ d + s) e p
  else
    let width := if l.sign ≠ s.sign then p + 1 else p
    ((overlay l s d e p width).fit width).settle p

/-- Sum of `s₁ × 10 ^ e₁` and `s₂ × 10 ^ e₂`.  Where one of them is zero the other is not
rounded. -/
def sum (s₁ e₁ s₂ e₂ : Int) (p : Nat) : Decimal :=
  if s₁ = 0 then ofParts s₂ e₂ p
  else if s₂ = 0 then ofParts s₁ e₁ p
  else if e₁ = e₂ then rounded (s₁ + s₂) e₁ p
  else if e₂ < e₁ then sumApart s₁ s₂ (e₁ - e₂).toNat e₂ p
  else sumApart s₂ s₁ (e₂ - e₁).toNat e₁ p

protected def add (x y : Decimal) : Decimal :=
  sum x.significand x.exponent y.significand y.exponent (max x.precision y.precision)

protected def sub (x y : Decimal) : Decimal :=
  sum x.significand x.exponent (-y.significand) y.exponent (max x.precision y.precision)

/-! ## Whole part -/

/-- The bound on the digits of `x` shows that its magnitude is below one hundredth. -/
def isTiny (x : Decimal) : Bool := x.exponent + digitBound x.significand.natAbs < -1

/-- Largest integer not above `x`.  The result is only as precise as the digits left, and of a tiny
number nothing is left. -/
def floor (x : Decimal) : Decimal :=
  if 0 ≤ x.exponent then x
  else if x.isTiny then ofParts (if x.isNegative then -1 else 0) 0 0
  else
    let (hi, lo) := cut x.significand (-x.exponent).toNat
    ofParts (if lo < 0 then hi - 1 else hi) 0 (x.precision + x.exponent).toNat

/-! ## Value -/

/-- The rational number that `x` stands for. -/
def toRat (x : Decimal) : Rat :=
  x.significand * (10 : Rat) ^ x.exponent

end Decimal

end UnitLedger
