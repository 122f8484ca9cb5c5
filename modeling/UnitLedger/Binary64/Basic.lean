import UnitLedger.Numeral
set_option autoImplicit false

/-! # Double-precision binary numbers

A finite `Binary64` is a sign and a magnitude `significand × 2 ^ exponent` of at most 53 bits, in
the one form that the interchange format gives it.  `nearest` rounds a fraction to the nearest of
them, a tie going to the even significand, and to infinity beyond the largest; all arithmetic goes
through it.
-/

namespace UnitLedger

open Numeral

namespace Binary64

/-- Exponent of the smallest positive magnitude, and of every magnitude of fewer than 53 bits. -/
def minExponent : Int := -1074

/-- Exponent of the largest finite magnitude. -/
def maxExponent : Int := 971

/-- The form of a finite magnitude: 53 bits, or fewer at the least exponent. -/
def IsCanonical (significand : Nat) (exponent : Int) : Prop :=
  significand < 2 ^ 53 ∧ minExponent ≤ exponent ∧ exponent ≤ maxExponent ∧
    (2 ^ 52 ≤ significand ∨ exponent = minExponent)

instance (m : Nat) (q : Int) : Decidable (IsCanonical m q) :=
  inferInstanceAs (Decidable (_ ∧ _ ∧ _ ∧ _))

/-- A finite double; zero has both signs. -/
structure Finite where
  negative : Bool
  significand : Nat
  exponent : Int
  canonical : IsCanonical significand exponent
  deriving DecidableEq, Repr

end Binary64

/-- A double: a finite number, an infinity of either sign, or no number. -/
inductive Binary64 where
  | finite (x : Binary64.Finite)
  | infinite (negative : Bool)
  | nan
  deriving DecidableEq, Repr

namespace Binary64

def isFinite : Binary64 → Bool
  | finite _ => true
  | _ => false

/-- Zero with a sign. -/
def zero (negative : Bool) : Finite := ⟨negative, 0, minExponent, by decide⟩

namespace Finite

/-- The rational number that `x` stands for; both zeros stand for zero. -/
def toRat (x : Finite) : Rat :=
  (if x.negative then -1 else 1) * x.significand * (2 : Rat) ^ x.exponent

/-- The same magnitude with the other sign. -/
protected def neg (x : Finite) : Finite :=
  ⟨!x.negative, x.significand, x.exponent, x.canonical⟩

end Finite

/-! ## Rounding a fraction -/

/-- The quotient rounded to the nearest integer, a tie going to the even one. -/
def roundHalfEven (num den : Nat) : Nat :=
  let q := num / den
  match compare (2 * (num % den)) den with
  | .lt => q
  | .eq => q + q % 2
  | .gt => q + 1

/-- The exponent of the largest power of two that is at most `num / den`, both positive. -/
def floorLog2 (num den : Nat) : Int :=
  let l : Int := (num.log2 : Int) - den.log2
  if den * 2 ^ l.toNat ≤ num * 2 ^ (-l).toNat then l else l - 1

/-- The exponent of the grid on which `num / den` is rounded: the one that leaves 53 bits, but not
less than the least. -/
def gridExponent (num den : Nat) : Int :=
  if num = 0 then minExponent else max minExponent (floorLog2 num den - 52)

/-- `num / den` on the grid of exponent `q`, rounded. -/
def onGrid (num den : Nat) (q : Int) : Nat :=
  roundHalfEven (num * 2 ^ (-q).toNat) (den * 2 ^ q.toNat)

/-- The double nearest to `num / den` with the sign given; a magnitude that rounds beyond the
largest one is infinite. -/
def nearest (negative : Bool) (num den : Nat) : Binary64 :=
  let q := gridExponent num den
  let m := onGrid num den q
  let (m, q) := if m = 2 ^ 53 then (2 ^ 52, q + 1) else (m, q)
  if h : IsCanonical m q then .finite ⟨negative, m, q, h⟩ else .infinite negative

/-- The double nearest to `magnitude × 10 ^ exponent` with the sign given.  Powers of ten are formed
only where the result is neither zero nor infinite for its size alone. -/
def ofDecimal (negative : Bool) (magnitude : Nat) (exponent : Int) : Binary64 :=
  let top := exponent + digitCount magnitude
  if magnitude = 0 ∨ top ≤ -324 then .finite (zero negative)
  else if 309 < top then .infinite negative
  else nearest negative (magnitude * 10 ^ exponent.toNat) (10 ^ (-exponent).toNat)

/-! ## Arithmetic -/

/-- The product, rounded once.  The product of zero and infinity is no number. -/
protected def mul : Binary64 → Binary64 → Binary64
  | finite x, finite y =>
    let q := x.exponent + y.exponent
    nearest (x.negative ^^ y.negative) (x.significand * y.significand * 2 ^ q.toNat)
      (2 ^ (-q).toNat)
  | finite x, infinite s => if x.significand = 0 then nan else infinite (x.negative ^^ s)
  | infinite s, finite y => if y.significand = 0 then nan else infinite (s ^^ y.negative)
  | infinite s, infinite t => infinite (s ^^ t)
  | nan, _ => nan
  | _, nan => nan

end Binary64

end UnitLedger
