import UnitLedger.Decimal.Printer
import UnitLedger.Proofs.Decimal.Power
import UnitLedger.Proofs.Numeral
set_option autoImplicit false

/-! # Rounding to places

Rounding to a number of fraction digits scales, rounds to an integer and scales back; only the first
step can lose digits (`exists_roundPlaces`) or take the exponent beyond its word (`scaleUp_beyond`).
The characters that are shown of a decimal are the digits of what a cut leaves of it
(`shownDigits_eq`), so its text is the numeral of that (`fixed_eq_numeral`), and of a rounded one it
shows the integer itself (`fixed_of_toRat`).
-/

namespace UnitLedger.Decimal

open Numeral Exact

/-! ## Powers of ten -/

theorem keeps_pow_ten {p : Nat} (hp : p ≠ 0) (n : Nat) : Keeps p ((10 : Rat) ^ n) := by
  have hone : digitCount (1 : Int).natAbs ≤ p := by
    rw [digitCount_le_iff]
    exact Nat.one_lt_pow hp (by decide)
  have hkeeps := keeps_of_digitCount_le hone n
  rwa [Int.cast_one, one_mul, zpow_natCast] at hkeeps

/-- A power is computed without loss when it and all powers before it have few enough digits. -/
theorem toRat_pow {x : Decimal} (hx : x.precision ≤ workingPrecision) {n : Nat}
    (hfit : ∀ k ≤ n, Keeps workingPrecision (x.toRat ^ k)) :
    (x.pow n).toRat = x.toRat ^ n ∧ (x.pow n).precision = workingPrecision :=
  ⟨toRat_pow_of_keeps (hfit n (Nat.le_refl n)), pow_precision hx n⟩

/-- A power of ten is computed without loss. -/
theorem pow_ten (n : Nat) :
    ((ofInt 10).pow n).toRat = 10 ^ n ∧ ((ofInt 10).pow n).precision = workingPrecision := by
  have hten : (ofInt 10).toRat = 10 := by
    rw [toRat_ofInt (keeps_intCast_of_lt (by decide))]
    norm_num
  have hpow := toRat_pow (x := ofInt 10) (ofInt_precision 10).le (n := n)
  rw [hten] at hpow
  exact hpow fun k _ => keeps_pow_ten (by decide) k

/-! ## Digits of a rounded number -/

/-- The integer nearest to a number has no more digits than the number: where a fraction is rounded
off, there is room for a carry. -/
theorem keeps_halfAway {p : Nat} {r : Rat} (hp : p ≠ 0) (h : Keeps p r) :
    Keeps p (halfAway r : Rat) := by
  obtain ⟨s, e, hs, rfl⟩ := h.resolve_left hp
  rcases le_or_gt 0 e with hwhole | hfraction
  · have hvalue := mul_zpow_of_le s hwhole
    rw [zpow_zero, mul_one] at hvalue
    rw [hvalue, halfAway_intCast]
    rwa [hvalue] at h
  · have hlt : (s.natAbs : Rat) ≤ 10 ^ p := by
      exact_mod_cast ((digitCount_le_iff _ _).1 hs).le
    have hpow : (10 : Rat) ^ e ≤ 10 ^ (-1 : Int) := zpow_le_zpow_right₀ (by norm_num) (by omega)
    have hone : (1 : Rat) ≤ 10 ^ p := one_le_pow₀ (by norm_num)
    have hsize : |(s : Rat) * (10 : Rat) ^ e| ≤ 10 ^ p * 10 ^ (-1 : Int) := by
      rw [abs_mul, abs_intCast, abs_of_pos (show (0 : Rat) < 10 ^ e by positivity)]
      exact mul_le_mul hlt hpow (by positivity) (by positivity)
    have hnear := abs_sub_halfAway_le ((s : Rat) * (10 : Rat) ^ e)
    have hback := abs_sub_abs_le_abs_sub (halfAway ((s : Rat) * (10 : Rat) ^ e) : Rat)
      ((s : Rat) * (10 : Rat) ^ e)
    rw [abs_sub_comm] at hnear
    have hbound : |(halfAway ((s : Rat) * (10 : Rat) ^ e) : Rat)| ≤ 10 ^ p := by
      rw [zpow_neg_one] at hsize
      linarith
    rw [abs_intCast] at hbound
    have hkeeps := keeps_of_natAbs_le_pow hp (by exact_mod_cast hbound) 0
    rwa [zpow_zero, mul_one] at hkeeps

/-- Rounding to places adds no digits, because scaling only moves the point. -/
theorem keeps_toPlaces {p : Nat} {r : Rat} (hp : p ≠ 0) (h : Keeps p r) (places : Nat) :
    Keeps p (toPlaces r places) := by
  have hmoved := h.mul_zpow places
  rw [zpow_natCast] at hmoved
  have hback := (keeps_halfAway hp hmoved).mul_zpow (-(places : Int))
  rwa [zpow_neg, zpow_natCast, ← div_eq_mul_inv] at hback

/-! ## Scaling up -/

/-- A number of small magnitude has a small exponent. -/
theorem exponent_le_of_abs_le {x : Decimal} {k : Nat} (h : |x.toRat| ≤ 10 ^ k) : x.exponent ≤ k := by
  by_cases hzero : x.significand = 0
  · have hnormal := x.normal
    rw [IsNormal, if_pos hzero] at hnormal
    rw [hnormal]
    exact Int.natCast_nonneg k
  · have hone : (1 : Rat) ≤ x.significand.natAbs := by
      exact_mod_cast Nat.pos_of_ne_zero (Int.natAbs_ne_zero.2 hzero)
    have hpow : (0 : Rat) < (10 : Rat) ^ x.exponent := by positivity
    rw [abs_toRat] at h
    have hle : (10 : Rat) ^ x.exponent ≤ 10 ^ (k : Int) := by
      rw [zpow_natCast]
      exact (le_mul_of_one_le_left hpow.le hone).trans h
    exact (zpow_le_zpow_iff_right₀ (by norm_num)).1 hle

/-- What scaling up gives has the working precision and no more digits. -/
theorem scaled_digits {x : Decimal} (hx : x.precision ≤ workingPrecision) (places : Nat) :
    (x.mul ((ofInt 10).pow places)).precision = workingPrecision ∧
      (x.mul ((ofInt 10).pow places)).length ≤ workingPrecision := by
  have hmax : max x.precision ((ofInt 10).pow places).precision = workingPrecision := by
    rw [(pow_ten places).2]
    exact Nat.max_eq_right hx
  rw [mul_precision, hmax, Decimal.mul, hmax]
  exact ⟨rfl, length_rounded_le _ _ (by decide)⟩

/-- Scaling up is multiplication as long as the exponent has a place in its word. -/
theorem scaleUp_eq {x : Decimal} {places : Nat}
    (h : places < 2 ^ 32 → (x.mul ((ofInt 10).pow places)).exponent < 2 ^ 63) :
    x.scaleUp places = x.mul ((ofInt 10).pow places) := by
  unfold scaleUp
  dsimp only
  rw [if_neg]
  rintro ⟨hplaces, hlast⟩
  exact Int.not_lt.2 hlast (h hplaces)

/-- The integer nearest to a scaled number is scaled back without loss, if it keeps its digits. -/
theorem roundScaled_of_keeps {x : Decimal} (hprec : x.precision = workingPrecision)
    (hlen : x.length ≤ workingPrecision) {places : Nat}
    (hfit : Keeps workingPrecision (halfAway x.toRat / 10 ^ places)) :
    ∃ y, x.roundScaled places = .ok y ∧ y.toRat = halfAway x.toRat / 10 ^ places ∧
      y.precision = workingPrecision := by
  obtain ⟨hscale, hscalePrec⟩ := pow_ten places
  have hround := toRat_roundHalfAway hlen (Or.inr (hlen.trans_eq hprec.symm))
  have hroundPrec := roundHalfAway_precision_le x
  rw [hprec, Nat.max_self] at hroundPrec
  have hmax : max x.roundHalfAway.precision ((ofInt 10).pow places).precision =
      workingPrecision := by
    rw [hscalePrec]
    exact Nat.max_eq_right hroundPrec
  have hne : ((ofInt 10).pow places).toRat ≠ 0 := by
    rw [hscale]
    positivity
  obtain ⟨y, hy, hyPrec, -, hquotient⟩ := exists_div hne (by decide) hmax
  rw [hround, hscale] at hquotient
  exact ⟨y, hy, hquotient hfit, hyPrec⟩

/-- A number of the working precision is rounded to places as the integer nearest to its scaled
value, which is exact as far as fifty digits go. -/
theorem exists_roundPlaces {x : Decimal} (hx : x.precision = workingPrecision) {places : Nat}
    (hbound : |x.toRat * 10 ^ places| ≤ 10 ^ 40) :
    ∃ (y : Decimal) (scaled : Rat), x.roundPlaces places = .ok y ∧
      y.toRat = halfAway scaled / 10 ^ places ∧
      |scaled - x.toRat * 10 ^ places| ≤ |x.toRat * 10 ^ places| * (10 : Rat) ^ (-49 : Int) / 2 ∧
      (Keeps workingPrecision (x.toRat * 10 ^ places) → scaled = x.toRat * 10 ^ places) := by
  obtain ⟨hscale, hprec⟩ := pow_ten places
  have hmax : max x.precision ((ofInt 10).pow places).precision = workingPrecision := by
    rw [hx, hprec, Nat.max_self]
  have hnear := abs_mul_sub_le x ((ofInt 10).pow places) (by decide) hmax
  have hexact := toRat_mul_of_keeps (x := x) (y := (ofInt 10).pow places)
  rw [hscale] at hnear hexact
  rw [hmax] at hexact
  obtain ⟨hscaledPrec, hscaledLen⟩ := scaled_digits hx.le places
  have hround := @roundScaled_of_keeps _ hscaledPrec hscaledLen places
  have hexponent := @exponent_le_of_abs_le (x.mul ((ofInt 10).pow places)) 41
  have hscaleUp := @scaleUp_eq x places
  generalize x.mul ((ofInt 10).pow places) = z at hnear hexact hround hexponent hscaleUp
  -- the scaled number is small, so its exponent is, and the integer has room
  have hsmall : |z.toRat| ≤ 10 ^ 41 ∧ |(halfAway z.toRat : Rat)| ≤ 10 ^ 41 := by
    have htriangle := abs_sub_abs_le_abs_sub z.toRat (x.toRat * 10 ^ places)
    have hhalf := abs_sub_halfAway_le z.toRat
    have hback := abs_sub_abs_le_abs_sub (halfAway z.toRat : Rat) z.toRat
    rw [abs_sub_comm] at hhalf
    unfold workingPrecision at hnear
    generalize x.toRat * 10 ^ places = r at *
    norm_num at hnear hbound ⊢
    constructor <;> linarith
  have hfit : Keeps workingPrecision ((halfAway z.toRat : Rat) / 10 ^ places) := by
    have hcount : digitCount (halfAway z.toRat).natAbs ≤ workingPrecision := by
      have hle := hsmall.2
      rw [abs_intCast] at hle
      have hnat : (halfAway z.toRat).natAbs ≤ 10 ^ 41 := by exact_mod_cast hle
      rw [digitCount_le_iff]
      unfold workingPrecision
      omega
    have hkeeps := (keeps_intCast hcount).mul_zpow (-(places : Int))
    rwa [zpow_neg, zpow_natCast, ← div_eq_mul_inv] at hkeeps
  obtain ⟨y, hy, hvalue, -⟩ := hround hfit
  have hword : z.exponent < 2 ^ 63 := by
    have := hexponent hsmall.1
    omega
  refine ⟨y, z.toRat, ?_, hvalue, hnear, hexact⟩
  rw [roundPlaces, hscaleUp fun _ => hword]
  exact hy

/-- Rounding to places never fails, however many they are: no power of ten is zero. -/
theorem roundPlaces_ok (x : Decimal) (places : Nat) : ∃ y, x.roundPlaces places = .ok y := by
  obtain ⟨hscale, hprec⟩ := pow_ten places
  have hne : ((ofInt 10).pow places).toRat ≠ 0 := by
    rw [hscale]
    positivity
  have hpositive : max (x.scaleUp places).roundHalfAway.precision
      ((ofInt 10).pow places).precision ≠ 0 := by
    rw [hprec]
    exact Nat.ne_of_gt (Nat.lt_of_lt_of_le (by decide) (Nat.le_max_right _ workingPrecision))
  obtain ⟨y, hy, -⟩ := exists_div hne hpositive rfl
  exact ⟨y, hy⟩

/-! ## Text -/

/-- The text of `n / 10 ^ places` with exactly `places` fraction digits. -/
def numeral (n : Int) (places : Nat) : List Char :=
  if n < 0 then '-' :: fixedPoint n.natAbs places else fixedPoint n.natAbs places

/-- A decimal cut at places, the sign aside: its significand with zeros or without its last digits. -/
theorem natAbs_towardZero_toRat (x : Decimal) (places : Nat) :
    (towardZero (x.toRat * 10 ^ places)).natAbs =
      if 0 ≤ x.exponent + places then x.significand.natAbs * 10 ^ (x.exponent + places).toNat
      else x.significand.natAbs / 10 ^ (x.exponent + places).natAbs := by
  have hscaled : |x.toRat * 10 ^ places| =
      x.significand.natAbs * (10 : Rat) ^ (x.exponent + places) := by
    rw [abs_mul, abs_toRat, abs_of_pos (show (0 : Rat) < 10 ^ places by positivity), mul_assoc,
      zpow_add₀ (by norm_num), zpow_natCast]
  have hfloor := natAbs_towardZero (x.toRat * 10 ^ places)
  rw [hscaled] at hfloor
  rw [← Int.natCast_inj, hfloor]
  split
  · next hwhole =>
    have hexp : x.exponent + places = ((x.exponent + places).toNat : Int) := by omega
    rw [hexp, zpow_natCast, Int.toNat_natCast]
    exact_mod_cast Int.floor_intCast _
  · next hcut =>
    have hexp : x.exponent + places = -((x.exponent + places).natAbs : Int) := by omega
    generalize (x.exponent + places).natAbs = k at hexp ⊢
    rw [hexp, zpow_neg, zpow_natCast, ← div_eq_mul_inv]
    have hquotient := Rat.floor_intCast_div_natCast x.significand.natAbs (10 ^ k)
    rw [Int.cast_natCast, Nat.cast_pow, Nat.cast_ofNat] at hquotient
    rw [hquotient]
    norm_cast

/-- The digits that are shown of a decimal are those of the number cut at the places. -/
theorem shownDigits_eq (x : Decimal) (places : Nat) :
    x.shownDigits places = fixedDigits (towardZero (x.toRat * 10 ^ places)).natAbs places := by
  rw [← leftpad_toDigits, natAbs_towardZero_toRat]
  unfold shownDigits unitDigits
  dsimp only
  split
  · next hwhole =>
    by_cases hzero : x.significand = 0
    · -- zero has its zeros behind it, where the numeral has them in front
      have hexp : x.exponent = 0 := by
        have hnormal := x.normal
        rwa [IsNormal, if_pos hzero] at hnormal
      rw [hzero, hexp, Int.zero_add, Int.toNat_natCast, Int.natAbs_zero, Nat.zero_mul,
        Nat.toDigits_zero, List.leftpad, List.leftpad, List.length_append, List.length_singleton,
        List.length_replicate, Nat.add_comm 1, Nat.sub_self, Nat.add_sub_cancel,
        ← List.replicate_succ', List.replicate_zero, List.nil_append, List.singleton_append,
        ← List.replicate_succ]
    · rw [toDigits_mul_pow (Int.natAbs_ne_zero.2 hzero)]
  · split
    · next hnone =>
      rw [Nat.div_eq_of_lt (lt_pow_of_length_le hnone), Nat.toDigits_zero]
    · next hsome =>
      rw [toDigits_div_pow (Nat.not_le.1 hsome)]

/-- The text of a decimal with a number of places is the numeral of what is left when the number is
cut at them. -/
theorem fixed_eq_numeral (x : Decimal) (places : Nat) :
    x.fixed places = numeral (towardZero (x.toRat * 10 ^ places)) places := by
  have hten : (0 : Rat) < 10 ^ places := by positivity
  have hminus := towardZero_neg_iff (x.toRat * 10 ^ places)
  have hneg : x.toRat * 10 ^ places < 0 ↔ x.isNegative = true := by
    rw [isNegative_iff]
    exact ⟨fun h => neg_of_mul_neg_left h hten.le, fun h => mul_neg_of_neg_of_pos h hten⟩
  rw [hneg] at hminus
  unfold fixed
  rw [shownDigits_eq]
  generalize towardZero (x.toRat * 10 ^ places) = n at hminus ⊢
  have hpoint : fixedPoint n.natAbs places = Nat.toDigits 10 (n.natAbs / 10 ^ places) ++
      if 0 < places then
        '.' :: (if places = 0 then [] else padded places (n.natAbs % 10 ^ places)) else [] := by
    unfold fixedPoint
    by_cases hplaces : places = 0
    · rw [if_pos hplaces, if_neg (by omega)]
    · rw [if_neg hplaces, if_pos (by omega), if_neg hplaces]
  have hsign : (x.isNegative && (fixedDigits n.natAbs places).any (· != '0')) = true ↔ n < 0 := by
    rw [Bool.and_eq_true, any_fixedDigits, Int.natAbs_ne_zero, hminus]
  dsimp only
  rw [splitAt_fixedDigits]
  dsimp only
  rw [List.append_assoc, ← hpoint, numeral]
  by_cases h : n < 0
  · rw [if_pos h, if_pos (hsign.2 h)]
    rfl
  · rw [if_neg h, if_neg (mt hsign.1 h)]
    rfl

/-- The text of a decimal that has no more than the places asked for shows all of it. -/
theorem fixed_of_toRat {x : Decimal} {n : Int} {places : Nat} (h : x.toRat = n / 10 ^ places) :
    x.fixed places = numeral n places := by
  rw [fixed_eq_numeral, h, div_mul_cancel₀ _ (by positivity), towardZero_intCast]

end UnitLedger.Decimal
