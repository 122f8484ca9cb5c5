import UnitLedger.Proofs.Quantity.Storing
import Mathlib.Tactic.Linarith
import Mathlib.Tactic.NormNum
import Mathlib.Tactic.Positivity
import Mathlib.Tactic.Ring
set_option autoImplicit false

/-! # Storing grains

The factor of the grain is computed from a seven-thousandth that is cut off after fifty digits, and
comes out a unit of its last digit too small.  Rounding a product with it to fifty digits makes up
for that only for some numbers (`Absorbs`); for the others the product is short of the exact one.
Being short by so little matters where the exact product is half a milligram above a whole number:
there the count comes out one too low in size (`ofValue_stores_grains`).
-/

namespace UnitLedger

open Numeral Decimal Exact Registry

namespace Decimal

/-! ## The product -/

/-- The factor of the grain as it is computed: `64.79891` less a unit of the fiftieth digit. -/
def grainFactor : Decimal := ⟨6479891 * 10 ^ 43 - 1, -48, 50, by decide⟩

/-- Rounding the product of `x` and the factor of the grain makes up for the digits that the factor
lacks: the product has its first digit in the upper of the two decades it can be in, and what is
missing from it is half a unit of its last digit at most. -/
def Absorbs (x : Decimal) : Prop :=
  10 ^ (x.length + 6) < 6479891 * x.significand.natAbs ∧ 2 * x.significand.natAbs ≤ 10 ^ x.length

instance (x : Decimal) : Decidable x.Absorbs := inferInstanceAs (Decidable (_ ∧ _))

/-- A multiple of `c` that is lessened by `m` and then rounded to a multiple of `c` is restored when
`m` is half of `c` at most, and otherwise comes out too small. -/
theorem restored_or_short {a t m c : Int} (hc : 0 < c) (hle : m + c < t * c)
    (hnear : 2 * ((a * c - (t * c - m)).natAbs : Int) ≤ c)
    (htie : 2 * ((a * c - (t * c - m)).natAbs : Int) = c →
      (t * c - m).natAbs < (a * c).natAbs) :
    (0 < m → 2 * m ≤ c → a * c = t * c) ∧
      (c < 2 * m → 0 < a * c ∧ a * c < t * c ∧ 2 * (t * c - a * c) ≤ 2 * m + c) := by
  constructor
  · intro hm hhalf
    have hlow : -1 * c < (a - t) * c := by
      rw [sub_mul]
      omega
    have hhigh : (a - t) * c < 1 * c := by
      rw [sub_mul]
      omega
    have hlow' := lt_of_mul_lt_mul_right hlow hc.le
    have hhigh' := lt_of_mul_lt_mul_right hhigh hc.le
    have hat : a = t := by omega
    rw [hat]
  · intro hmore
    refine ⟨by omega, by omega, by omega⟩

/-- How many digits the product has before it is rounded. -/
theorem digitCount_grain {v l : Nat} (hlow : 10 ^ l ≤ 10 * v) (hhigh : v < 10 ^ l) (hl : l ≤ 17) :
    (digitCount (v * (6479891 * 10 ^ 43 - 1)) = l + 50 ∧ 10 ^ (l + 6) < 6479891 * v) ∨
      (digitCount (v * (6479891 * 10 ^ 43 - 1)) = l + 49 ∧ ¬ 10 ^ (l + 6) < 6479891 * v) := by
  have hten : 10 ^ l ≤ 10 ^ 17 := Nat.pow_le_pow_right (by decide) hl
  have hleast : l + 48 < digitCount (v * (6479891 * 10 ^ 43 - 1)) := by
    rw [lt_digitCount_iff, Nat.pow_add]
    omega
  have hmost : digitCount (v * (6479891 * 10 ^ 43 - 1)) ≤ l + 50 := by
    rw [digitCount_le_iff, Nat.pow_add]
    omega
  have hmiddle := lt_digitCount_iff (v * (6479891 * 10 ^ 43 - 1)) (l + 49)
  rw [Nat.pow_add] at hmiddle
  rw [Nat.pow_add]
  by_cases h : 10 ^ l * 10 ^ 6 < 6479891 * v
  · exact Or.inl ⟨by omega, h⟩
  · exact Or.inr ⟨by omega, h⟩

/-- The rounded significand of a product with the factor of the grain, in its own units: restored
when the number absorbs what the factor lacks, and short by little when it does not. -/
theorem exists_rounded_grain {v l : Nat} (hlow : 10 ^ l ≤ 10 * v) (hhigh : v < 10 ^ l)
    (hl : l ≤ 17) (e : Int) :
    ∃ b : Int, (rounded (v * (6479891 * 10 ^ 43 - 1)) e 50).toRat = b * (10 : Rat) ^ e ∧
      (10 ^ (l + 6) < 6479891 * v ∧ 2 * v ≤ 10 ^ l → b = v * (6479891 * 10 ^ 43)) ∧
      (¬ (10 ^ (l + 6) < 6479891 * v ∧ 2 * v ≤ 10 ^ l) →
        0 < b ∧ b < v * (6479891 * 10 ^ 43) ∧ v * (6479891 * 10 ^ 43) - b ≤ 2 * 10 ^ l) := by
  have hnat : ((v : Int) * (6479891 * 10 ^ 43 - 1)).natAbs = v * (6479891 * 10 ^ 43 - 1) := by
    rw [Int.natAbs_mul]
    rfl
  have hpos : l ≠ 0 := by
    rintro rfl
    omega
  have hdigits := digitCount_grain hlow hhigh hl
  rw [← hnat] at hdigits
  obtain ⟨a, hrounded, hnear, htie⟩ := exists_rounded_eq_ofParts e (by decide : 50 ≠ 0)
    (show 50 ≤ digitCount ((v : Int) * (6479891 * 10 ^ 43 - 1)).natAbs by omega)
  -- the last digit kept is that of `10 ^ k`
  obtain ⟨k, hk, hkcase⟩ : ∃ k,
      digitCount ((v : Int) * (6479891 * 10 ^ 43 - 1)).natAbs - 50 = k ∧
      (k = l ∧ 10 ^ (l + 6) < 6479891 * v ∨ k + 1 = l ∧ ¬ 10 ^ (l + 6) < 6479891 * v) :=
    ⟨_, rfl, by omega⟩
  rw [hk] at hrounded hnear htie
  have hsplit : (v : Int) * (6479891 * 10 ^ 43) = v * (6479891 * 10 ^ (43 - k)) * 10 ^ k := by
    rw [mul_assoc, mul_assoc, ← pow_add, Nat.sub_add_cancel (by omega)]
  have hunit : (10 : Int) ^ k ≤ 10 ^ l := pow_le_pow_right₀ (by norm_num) (by omega)
  have hten : (10 : Int) ^ l ≤ 10 ^ 17 := pow_le_pow_right₀ (by norm_num) hl
  have hlow' : (10 : Int) ^ l ≤ 10 * v := by exact_mod_cast hlow
  have hhigh' : (v : Int) < 10 ^ l := by exact_mod_cast hhigh
  rw [mul_sub_one, hsplit] at hnear htie
  obtain ⟨hrestored, hshort⟩ := restored_or_short (t := v * (6479891 * 10 ^ (43 - k))) (m := v)
    (by positivity) (by rw [← hsplit]; omega) (by exact_mod_cast hnear)
    (fun h => htie (by exact_mod_cast h))
  rw [← hsplit] at hrestored hshort
  refine ⟨a * 10 ^ k, ?_, ?_, ?_⟩
  · rw [hrounded, toRat_ofParts, Rat.zpow_add (by decide), Rat.zpow_natCast]
    push_cast
    ring
  · rintro ⟨hdecade, hhalf⟩
    obtain rfl : k = l := by omega
    exact hrestored (by omega) (by exact_mod_cast hhalf)
  · intro hnot
    have hmore : (10 : Int) ^ k < 2 * v := by
      rcases hkcase with ⟨rfl, hdecade⟩ | ⟨rfl, -⟩
      · by_contra hle
        exact hnot ⟨hdecade, by exact_mod_cast not_lt.1 hle⟩
      · rw [pow_succ] at hlow'
        omega
    obtain ⟨hb, hlt, hle⟩ := hshort hmore
    exact ⟨hb, hlt, by omega⟩

/-- The product of a number of no more than seventeen digits and the factor of the grain has the
sign of the exact product and is that product, or short of it by little. -/
theorem exists_mul_grainFactor {x : Decimal} (hne : x.significand ≠ 0) (hlen : x.length ≤ 17)
    (hprec : x.precision = workingPrecision) :
    ∃ b : Rat, (x.mul grainFactor).toRat = x.significand.sign * b ∧ 0 < b ∧
      (x.Absorbs → b = |x.toRat| * (6479891 / 100000)) ∧
      (¬ x.Absorbs → b < |x.toRat| * (6479891 / 100000) ∧
        |x.toRat| * (6479891 / 100000) - b ≤ 2 * (10 : Rat) ^ (x.top - 48)) := by
  have hnat : 0 < x.significand.natAbs := Int.natAbs_pos.2 hne
  have hfirst : 10 ^ x.length ≤ 10 * x.significand.natAbs := by
    have hle : 10 ^ (x.length - 1) ≤ x.significand.natAbs := pow_le_of_ne_zero hnat.ne'
    have hpow : 10 ^ (x.length - 1) * 10 = 10 ^ x.length :=
      Nat.pow_pred_mul ((digitCount_pos_iff _).2 hnat.ne')
    omega
  obtain ⟨b, hvalue, hrestored, hshort⟩ :=
    exists_rounded_grain hfirst (lt_pow_digitCount _) hlen (x.exponent + -48)
  have hunit : (0 : Rat) < 10 ^ (x.exponent + -48) := by positivity
  have hexact : |x.toRat| * (6479891 / 100000) =
      (x.significand.natAbs * (6479891 * 10 ^ 43) : Int) * (10 : Rat) ^ (x.exponent + -48) := by
    rw [abs_toRat, Rat.zpow_add (by decide)]
    push_cast
    norm_num
    ring
  have htop : (10 : Rat) ^ (x.top - 48) = 10 ^ x.length * 10 ^ (x.exponent + -48) := by
    have hexp : x.top - 48 = (x.length : Int) + (x.exponent + -48) := by
      unfold top
      omega
    rw [hexp, Rat.zpow_add (by decide), Rat.zpow_natCast]
  refine ⟨b * (10 : Rat) ^ (x.exponent + -48), ?_, ?_, ?_, ?_⟩
  · rw [← hvalue, ← toRat_rounded_mul, Decimal.mul, hprec]
    rfl
  · have hb : 0 < b := by
      by_cases habsorbs : x.Absorbs
      · rw [hrestored habsorbs]
        positivity
      · exact (hshort habsorbs).1
    exact mul_pos (by exact_mod_cast hb) hunit
  · intro habsorbs
    rw [hexact, hrestored habsorbs]
  · intro hnot
    obtain ⟨-, hlt, hle⟩ := hshort hnot
    rw [hexact, htop]
    constructor
    · exact mul_lt_mul_of_pos_right (by exact_mod_cast hlt) hunit
    · rw [← sub_mul, ← mul_assoc (2 : Rat)]
      refine mul_le_mul_of_nonneg_right ?_ hunit.le
      exact_mod_cast hle

end Decimal

/-! ## The stored count -/

namespace StoredQuantity

/-- The count after rounding, for a number whose product is short but not beyond all words. -/
theorem halfAway_of_short {x : Decimal} {b : Rat} (hlen : x.length ≤ 17) (htop : x.top ≤ 47)
    (hlt : b < |x.toRat| * (6479891 / 100000))
    (hshort : |x.toRat| * (6479891 / 100000) - b ≤ 2 * (10 : Rat) ^ (x.top - 48)) :
    halfAway b = halfAway (|x.toRat| * (6479891 / 100000)) -
      if IsTie (|x.toRat| * (6479891 / 100000)) then 1 else 0 := by
  have hexact : |x.toRat| * (6479891 / 100000) =
      (x.significand.natAbs * 6479891 : Int) * (10 : Rat) ^ (x.exponent - 5) := by
    rw [abs_toRat, zpow_sub₀ (by norm_num)]
    push_cast
    norm_num
    ring
  have hnonneg : 0 ≤ |x.toRat| * (6479891 / 100000 : Rat) := by positivity
  have hstep : |x.toRat| * (6479891 / 100000) - b < gridStep (x.exponent - 5) := by
    refine hshort.trans_lt ?_
    unfold gridStep
    split
    · have hexp : x.top - 48 ≤ (x.exponent - 5) + -26 := by
        unfold top
        omega
      have hle : (10 : Rat) ^ (x.top - 48) ≤ 10 ^ (x.exponent - 5) * 10 ^ (-26 : Int) := by
        rw [← zpow_add₀ (by norm_num)]
        exact zpow_le_zpow_right₀ (by norm_num) hexp
      have hpos : (0 : Rat) < 10 ^ (x.exponent - 5) := by positivity
      norm_num at hle
      linarith
    · have hle : (10 : Rat) ^ (x.top - 48) ≤ 10 ^ (-1 : Int) :=
        zpow_le_zpow_right₀ (by norm_num) (by omega)
      norm_num at hle
      linarith
  split
  · next htie =>
    exact halfAway_below_tie hnonneg htie hlt (hstep.trans_le (gridStep_le _))
  · next htie =>
    rw [Int.sub_zero]
    obtain ⟨m, hm⟩ := exists_mul_gridStep (x.significand.natAbs * 6479891)
      (halfAway (|x.toRat| * (6479891 / 100000))) (x.exponent - 5)
    rw [← hexact] at hm
    exact halfAway_below_of_grid hnonneg htie (gridStep_pos _) hm hlt.le hstep

/-- The exact product is a tie, and the computed one is short of it. -/
def Slips (x : Decimal) : Prop := IsTie (x.toRat * (6479891 / 100000)) ∧ ¬ x.Absorbs

instance (x : Decimal) : Decidable (Slips x) := inferInstanceAs (Decidable (_ ∧ _))

/-- The rounded product for a number that is not beyond all words. -/
theorem halfAway_mul_grainFactor {x : Decimal} (hne : x.significand ≠ 0) (hlen : x.length ≤ 17)
    (hprec : x.precision = workingPrecision) (htop : x.top ≤ 47) :
    halfAway (x.mul grainFactor).toRat = halfAway (x.toRat * (6479891 / 100000)) -
      if Slips x then (halfAway (x.toRat * (6479891 / 100000))).sign else 0 := by
  obtain ⟨b, hvalue, hb, hrestored, hshort⟩ := exists_mul_grainFactor hne hlen hprec
  have hsigns : x.significand.sign = 1 ∨ x.significand.sign = -1 := sign_eq_one_or hne
  have hexact : x.toRat * (6479891 / 100000) =
      x.significand.sign * (|x.toRat| * (6479891 / 100000)) := by
    rw [abs_toRat, toRat]
    conv => lhs; rw [← Int.sign_mul_natAbs x.significand, Int.cast_mul, Int.cast_natCast]
    ring
  have hties := isTie_sign_mul hsigns (|x.toRat| * (6479891 / 100000))
  rw [← hexact] at hties
  have hpos : 0 ≤ |x.toRat| * (6479891 / 100000 : Rat) := by positivity
  rw [hvalue, hexact, halfAway_sign_mul hsigns, halfAway_sign_mul hsigns]
  by_cases habsorbs : x.Absorbs
  · rw [hrestored habsorbs, if_neg fun h => h.2 habsorbs, sub_zero]
  · obtain ⟨hlt, hle⟩ := hshort habsorbs
    rw [halfAway_of_short hlen htop hlt hle]
    by_cases htie : IsTie (|x.toRat| * (6479891 / 100000))
    · -- the exact count is at least one there, and has the sign of the number
      have hone : 0 < halfAway (|x.toRat| * (6479891 / 100000)) := by
        have hcast : (0 : Rat) < (halfAway (|x.toRat| * (6479891 / 100000)) : Int) := by
          rw [htie.halfAway_eq hpos]
          linarith
        exact_mod_cast hcast
      rw [if_pos htie, if_pos ⟨hties.2 htie, habsorbs⟩, Int.sign_mul, Int.sign_eq_one_of_pos hone,
        Int.sign_sign]
      ring
    · rw [if_neg htie, if_neg fun h => htie (hties.1 h.1), sub_zero, sub_zero]

/-- Beyond all words the product is so as well, rounded or not. -/
theorem large_of_top {x : Decimal} (hlen : x.length ≤ 17)
    (hprec : x.precision = workingPrecision) (htop : 48 ≤ x.top) :
    (10 : Rat) ^ 21 ≤ |(x.mul grainFactor).toRat| ∧
      (10 : Rat) ^ 21 ≤ |x.toRat * (6479891 / 100000)| := by
  have hne : x.significand ≠ 0 := by
    intro hzero
    rw [top_eq_zero hzero] at htop
    omega
  have hexp : (10 : Rat) ^ (47 : Int) * 10 ^ (x.top - 48) = 10 ^ (x.top - 1) := by
    rw [← zpow_add₀ (by norm_num)]
    congr 1
    omega
  have hunit : (10 : Rat) ^ (0 : Int) ≤ 10 ^ (x.top - 48) :=
    zpow_le_zpow_right₀ (by norm_num) (by omega)
  have hlow := pow_top_le_abs_toRat hne
  rw [← hexp] at hlow
  rw [zpow_zero] at hunit
  norm_num at hlow
  obtain ⟨b, hvalue, hb, hrestored, hshort⟩ := exists_mul_grainFactor hne hlen hprec
  have habs : |(x.mul grainFactor).toRat| = b := by
    rw [hvalue, abs_mul, abs_of_pos hb]
    rcases sign_eq_one_or hne with hs | hs <;> rw [hs] <;> simp
  rw [habs, abs_mul, abs_of_pos (show (0 : Rat) < 6479891 / 100000 by norm_num)]
  refine ⟨?_, by linarith⟩
  by_cases habsorbs : x.Absorbs
  · rw [hrestored habsorbs]
    linarith
  · have hle := (hshort habsorbs).2
    linarith

/-- The milligrams in `x` grains, a grain being a seven-thousandth of a pound. -/
def exactMilligrams (x : Binary64.Finite) : Rat := x.writtenValue * (45359237 / 100 / 7000)

theorem find?_grain :
    builtin.find? "gr" = some ⟨"gr", "grain", .weight, .imperial, grainFactor⟩ := by
  decide +kernel

end StoredQuantity

/-! ## Computed and exact factors -/

namespace Registry

open StoredQuantity

theorem toRat_grainFactor : grainFactor.toRat = 6479891 / 100000 - 1 / 10 ^ 48 := by
  norm_num [toRat, grainFactor]

/-- The factor that is computed for a unit is the one that the tables define, but for the grain. -/
theorem factor_cases {u : MeasureUnit} {f : Rat} (hu : u ∈ builtin.units)
    (hf : exactFactor? u.symbol = some f) :
    u.symbol ≠ "gr" ∧ u.factor.toRat = f ∨ u.factor = grainFactor ∧ f = 6479891 / 100000 := by
  by_cases hgrain : u.symbol = "gr"
  · right
    have hunit := find?_symbol u hu
    rw [hgrain] at hf hunit
    obtain rfl := Option.some.inj (find?_grain.symm.trans hunit)
    exact ⟨rfl, (Option.some.inj (grain_exactFactor.symm.trans hf)).symm⟩
  · left
    have heq := factor_eq_exactFactor u hu hgrain
    rw [hf] at heq
    exact ⟨hgrain, (Option.some.inj heq).symm⟩

/-- The factor that is computed is a little less than the one that the tables define at most. -/
theorem near_factor {u : MeasureUnit} {f : Rat} (hu : u ∈ builtin.units)
    (hf : exactFactor? u.symbol = some f) : Near (1 / 10 ^ 49) u.factor.toRat f := by
  rcases factor_cases hu hf with ⟨-, heq⟩ | ⟨hfactor, rfl⟩
  · rw [heq]
    exact near_self (by norm_num) f
  · rw [hfactor, toRat_grainFactor, Near, sub_right_comm, sub_self, zero_sub, abs_neg,
      abs_of_pos (by norm_num), abs_of_pos (by norm_num)]
    norm_num

theorem exactFactor_pos {u : MeasureUnit} {f : Rat} (hu : u ∈ builtin.units)
    (hf : exactFactor? u.symbol = some f) : 0 < f := by
  rcases factor_cases hu hf with ⟨-, hfactor⟩ | ⟨-, hfactor⟩
  · rw [← hfactor]
    exact factor_pos hu
  · rw [hfactor]
    norm_num

/-- A quotient by the factor that is computed is near the exact one. -/
theorem near_div_factor {u : MeasureUnit} {f : Rat} (hu : u ∈ builtin.units)
    (hf : exactFactor? u.symbol = some f) (v : Rat) :
    Near (2 * (1 / 10 ^ 49)) (v / u.factor.toRat) (v / f) :=
  ((near_factor hu hf).div (factor_pos hu).ne' (exactFactor_pos hu hf).ne' v).symm (by norm_num)
    (by norm_num)

end Registry

/-! ## Storing -/

namespace StoredQuantity

/-- What stores the product with the factor of the grain stores the exact count, or one less in size
where the number slips. -/
theorem stores_of_mul_grainFactor {d : Dimension} {x : Decimal} (hlen : x.length ≤ 17)
    (hprec : x.precision = workingPrecision) {r : Except UnitError StoredQuantity}
    (hstores : Stores d (halfAway (x.mul grainFactor).toRat) r) :
    Stores d
      (halfAway (x.toRat * (6479891 / 100000)) -
        if Slips x then (halfAway (x.toRat * (6479891 / 100000))).sign else 0) r := by
  by_cases hzero : x.significand = 0
  · have hprod : (x.mul grainFactor).toRat = 0 := by
      rw [Decimal.mul, hzero, zero_mul]
      simp [rounded, toRat]
    have hround : halfAway 0 = 0 := halfAway_intCast 0
    rw [hprod, hround] at hstores
    rw [(toRat_eq_zero_iff x).2 hzero, zero_mul, hround, Int.sign_zero, ite_self, sub_zero]
    exact hstores
  · rcases le_or_gt x.top 47 with htop | htop
    · rwa [halfAway_mul_grainFactor hzero hlen hprec htop] at hstores
    · obtain ⟨hproduct, hexact⟩ := large_of_top hlen hprec (by omega)
      -- one base unit more or less does not bring the count back into range
      refine (Stores.refused ?_).2 ((Stores.refused ?_).1 hstores)
      · have hround := large_halfAway hexact
        rw [← Int.cast_abs, Int.abs_eq_natAbs] at hround ⊢
        have hint : 10 ^ 21 - 1 ≤ ((halfAway (x.toRat * (6479891 / 100000))).natAbs : Int) := by
          exact_mod_cast hround
        have hsign := Int.sign_trichotomy (halfAway (x.toRat * (6479891 / 100000)))
        have hgoal : 10 ^ 20 ≤ ((halfAway (x.toRat * (6479891 / 100000)) -
            if Slips x then (halfAway (x.toRat * (6479891 / 100000))).sign else 0).natAbs :
              Int) := by
          split <;> omega
        exact_mod_cast hgoal
      · exact le_trans (by norm_num) (large_halfAway hproduct)

/-- Storing grains: the count is the exact number of milligrams rounded half away from zero, except
that half a milligram is dropped where the number does not absorb what the factor lacks. -/
theorem ofValue_stores_grains (x : Binary64.Finite) :
    Stores .weight
      (halfAway (exactMilligrams x) -
        if IsTie (exactMilligrams x) ∧ ¬ (ofFinite x).Absorbs then
          (halfAway (exactMilligrams x)).sign
        else 0)
      (ofValue .weight (.finite x) "gr") := by
  have hexact : exactMilligrams x = (ofFinite x).toRat * (6479891 / 100000) := by
    rw [exactMilligrams, toRat_ofFinite]
    norm_num
  rw [hexact]
  exact stores_of_mul_grainFactor (length_ofFinite_le x) (ofFinite_precision x)
    (stores_mul find?_grain rfl x)

/-- A hundred and fifty thousand grains are 9719836.5 milligrams, a tie that is not rounded away
from zero. -/
theorem grains_tie_rounded_down :
    exactMilligrams ⟨false, 5153960755200000, -35, by decide⟩ = 9719837 - 1 / 2 ∧
      ofValue .weight (.finite ⟨false, 5153960755200000, -35, by decide⟩) "gr" =
        .ok ⟨9719836, .weight⟩ ∧
      ¬ Stores .weight
        (halfAway (exactMilligrams ⟨false, 5153960755200000, -35, by decide⟩))
        (ofValue .weight (.finite ⟨false, 5153960755200000, -35, by decide⟩) "gr") := by
  have hexact : exactMilligrams ⟨false, 5153960755200000, -35, by decide⟩ = 9719837 - 1 / 2 := by
    decide +kernel
  have hround : halfAway (exactMilligrams ⟨false, 5153960755200000, -35, by decide⟩) = 9719837 := by
    decide +kernel
  have hstored : ofValue .weight (.finite ⟨false, 5153960755200000, -35, by decide⟩) "gr" =
      .ok ⟨9719836, .weight⟩ := by
    decide +kernel
  refine ⟨hexact, hstored, ?_⟩
  rw [hround, hstored]
  rintro ⟨w, hw, heq⟩
  have hword : (9719836 : Int64) = w := congrArg baseValue (Except.ok.inj heq)
  rw [← hword] at hw
  exact absurd hw (by decide)

end StoredQuantity

end UnitLedger
