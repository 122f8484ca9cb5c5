set_option autoImplicit false

/-! # Decimal numerals of naturals

How many digits a natural has, how many zeros it ends in, and its text with a fixed number of
fraction digits.  Main statements: `digitCount_le_iff` compares a digit count with a power of ten,
and `pow_trailingZeros_dvd` with `div_pow_trailingZeros_mod` say that `trailingZeros` counts all
the zeros at the end and no more.
-/

namespace UnitLedger

-- Of naturals and integers a power is core's, whatever else a module imports.
attribute [scoped instance (2000)] instPowNat
attribute [default_instance 20000] instPowNat

namespace Numeral

/-! ## Counting digits -/

/-- Number of decimal digits of `n`; zero has none. -/
def digitCount (n : Nat) : Nat :=
  if n = 0 then 0 else digitCount (n / 10) + 1
termination_by n
decreasing_by omega

@[simp] theorem digitCount_zero : digitCount 0 = 0 := by
  simp [digitCount]

theorem digitCount_of_ne_zero {n : Nat} (h : n ≠ 0) :
    digitCount n = digitCount (n / 10) + 1 := by
  rw [digitCount, if_neg h]

theorem digitCount_le_iff (n k : Nat) : digitCount n ≤ k ↔ n < 10 ^ k := by
  induction k generalizing n with
  | zero =>
    by_cases h : n = 0
    · simp [h]
    · rw [digitCount_of_ne_zero h]
      omega
  | succ k ih =>
    by_cases h : n = 0
    · rw [h, digitCount_zero]
      exact iff_of_true (Nat.zero_le _) (Nat.pow_pos (by decide))
    · rw [digitCount_of_ne_zero h, Nat.succ_le_succ_iff, ih, Nat.pow_succ,
        Nat.div_lt_iff_lt_mul (by decide)]

theorem lt_pow_digitCount (n : Nat) : n < 10 ^ digitCount n :=
  (digitCount_le_iff n _).1 (Nat.le_refl _)

theorem lt_digitCount_iff (n k : Nat) : k < digitCount n ↔ 10 ^ k ≤ n := by
  rw [← Nat.not_le, digitCount_le_iff, Nat.not_lt]

theorem digitCount_pos_iff (n : Nat) : 0 < digitCount n ↔ n ≠ 0 := by
  rw [lt_digitCount_iff, Nat.pow_zero]
  omega

/-! ## Zeros at the end -/

/-- Number of zeros at the end of the numeral of `n`; zero counts none. -/
def trailingZeros (n : Nat) : Nat :=
  if n ≠ 0 ∧ n % 10 = 0 then trailingZeros (n / 10) + 1 else 0
termination_by n
decreasing_by omega

theorem pow_trailingZeros_dvd (n : Nat) : 10 ^ trailingZeros n ∣ n := by
  fun_induction trailingZeros n with
  | case1 n h ih =>
    obtain ⟨c, hc⟩ := ih
    refine ⟨c, ?_⟩
    rw [Nat.pow_succ, Nat.mul_right_comm, ← hc]
    omega
  | case2 n _ => simp

theorem div_pow_trailingZeros_mod {n : Nat} (h : n ≠ 0) :
    n / 10 ^ trailingZeros n % 10 ≠ 0 := by
  fun_induction trailingZeros n with
  | case1 n hn ih =>
    rw [Nat.pow_succ, Nat.mul_comm, ← Nat.div_div_eq_div_mul]
    exact ih (by omega)
  | case2 n hn => simpa [h] using hn

/-! ## Text -/

/-- The digits of `n`, with zeros in front up to `width` characters. -/
def padded (width n : Nat) : List Char :=
  let digits := Nat.toDigits 10 n
  List.replicate (width - digits.length) '0' ++ digits

/-- Text of `scaled / 10 ^ places` with exactly `places` fraction digits; without fraction digits
there is no point. -/
def fixedPoint (scaled places : Nat) : List Char :=
  Nat.toDigits 10 (scaled / 10 ^ places) ++
    if places = 0 then [] else '.' :: padded places (scaled % 10 ^ places)

@[simp] theorem fixedPoint_zero_places (n : Nat) : fixedPoint n 0 = Nat.toDigits 10 n := by
  simp [fixedPoint]

/-- Text of `magnitude × 10 ^ exponent` with every digit, and with no fraction digit more than the
exponent calls for. -/
def positional (magnitude : Nat) (exponent : Int) : List Char :=
  fixedPoint (magnitude * 10 ^ exponent.toNat) (-exponent).toNat

end Numeral

end UnitLedger
