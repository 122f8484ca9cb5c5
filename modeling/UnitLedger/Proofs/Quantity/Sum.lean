import UnitLedger.Proofs.Amount
import UnitLedger.Proofs.Quantity.Count
set_option autoImplicit false

/-! # Sums of stored quantities

Quantities are added one after the other, and every sum on the way has to be stored.  A list can be
added to a quantity exactly when all dimensions agree and every partial sum is storable, and then
the result is the exact sum (`addAll_eq_ok_iff`); the first addition for which this fails decides
the error (`addAll_eq_error_iff`).  So the order of the list has no influence on the result, and on
success only where counts of both signs meet (`addAll_any_order`).
-/

namespace UnitLedger.StoredQuantity

/-- The sum of a quantity and those of a list, added from left to right. -/
def addAll (q : StoredQuantity) (rs : List StoredQuantity) : Except UnitError StoredQuantity :=
  rs.foldlM checkedAdd q

/-- The exact sum of the counts. -/
def counted (qs : List StoredQuantity) : Int := (qs.map fun q => q.baseValue.toInt).sum

@[simp] theorem addAll_nil (q : StoredQuantity) : addAll q [] = .ok q := rfl

theorem addAll_cons (q r : StoredQuantity) (rs : List StoredQuantity) :
    addAll q (r :: rs) = q.checkedAdd r >>= fun s => addAll s rs := rfl

@[simp] theorem counted_nil : counted [] = 0 := rfl

@[simp] theorem counted_cons (q : StoredQuantity) (qs : List StoredQuantity) :
    counted (q :: qs) = q.baseValue.toInt + counted qs := List.sum_cons

variable {q r s : StoredQuantity} {rs : List StoredQuantity}

theorem eq_iff_toInt :
    q = r ↔ q.dimension = r.dimension ∧ q.baseValue.toInt = r.baseValue.toInt := by
  rw [Int64.toInt_inj]
  cases q
  cases r
  simp only [mk.injEq, and_comm]

/-! ## One addition -/

theorem isStorable_baseValue (q : StoredQuantity) : IsStorable q.baseValue.toInt :=
  (exists_toInt_iff _).1 ⟨q.baseValue, rfl⟩

theorem storable?_isSome_iff (n : Int) : (storable? n).isSome ↔ IsStorable n := by
  rw [Option.isSome_iff_exists, ← exists_toInt_iff]
  simp only [storable?_eq_some_iff]

/-- Two quantities of one dimension have a sum when it is storable. -/
theorem exists_checkedAdd (hd : q.dimension = r.dimension)
    (h : IsStorable (q.baseValue.toInt + r.baseValue.toInt)) : ∃ s, q.checkedAdd r = .ok s := by
  obtain ⟨w, hw⟩ := Option.isSome_iff_exists.1 ((storable?_isSome_iff _).2 h)
  refine ⟨⟨w, q.dimension⟩, ?_⟩
  rw [checkedAdd_eq_ok_iff]
  exact ⟨hd, rfl, (storable?_eq_some_iff _ _).1 hw⟩

/-- What an addition fails for: dimensions that differ, and else a sum that is not storable. -/
theorem checkedAdd_eq_error_iff {e : UnitError} :
    q.checkedAdd r = .error e ↔
      q.dimension ≠ r.dimension ∧
          e = .dimensionMismatch q.dimension.name r.dimension.name r.dimension.baseSymbol ∨
        q.dimension = r.dimension ∧ ¬ IsStorable (q.baseValue.toInt + r.baseValue.toInt) ∧
          e = .invalidQuantity "sum is outside the storable range" := by
  rw [← storable?_isSome_iff]
  unfold checkedAdd
  by_cases hd : q.dimension = r.dimension
  · rw [if_pos hd]
    cases hsum : storable? (q.baseValue.toInt + r.baseValue.toInt) <;>
      simp only [hd, ne_eq, not_true, false_and, false_or, true_and, Option.isSome_none,
        Option.isSome_some, Bool.false_eq_true, not_false_iff, Except.error.injEq, reduceCtorEq,
        eq_comm]
  · rw [if_neg hd]
    simp only [hd, ne_eq, not_false_iff, true_and, false_and, or_false, Except.error.injEq,
      eq_comm]

/-- An addition can be made in the list of the counts. -/
theorem counted_of_checkedAdd (h : q.checkedAdd r = .ok s) (qs : List StoredQuantity) :
    counted (s :: qs) = counted (q :: r :: qs) := by
  simp only [counted_cons, (checkedAdd_eq_ok_iff.1 h).2.2, Int.add_assoc]

/-! ## A list of quantities -/

/-- A list is added exactly when all dimensions agree and all partial sums are storable, and then
the sum is exact. -/
theorem addAll_eq_ok_iff :
    addAll q rs = .ok s ↔
      (∀ r ∈ rs, r.dimension = q.dimension) ∧
        (∀ front, front <+: rs → IsStorable (counted (q :: front))) ∧
        s.dimension = q.dimension ∧ s.baseValue.toInt = counted (q :: rs) := by
  induction rs generalizing q with
  | nil =>
    rw [addAll_nil, Except.ok.injEq, eq_comm, eq_iff_toInt]
    simp [q.isStorable_baseValue]
  | cons r rs ih =>
    rw [addAll_cons]
    constructor
    · intro h
      obtain ⟨m, hm, hrest⟩ := exists_of_bind_eq_ok h
      obtain ⟨hd, hmd, -⟩ := checkedAdd_eq_ok_iff.1 hm
      obtain ⟨hdims, hpartial, hsd, hsv⟩ := ih.1 hrest
      refine ⟨?_, ?_, hsd.trans hmd, hsv.trans (counted_of_checkedAdd hm rs)⟩
      · rw [List.forall_mem_cons]
        exact ⟨hd.symm, fun x hx => (hdims x hx).trans hmd⟩
      · intro front hfront
        rcases List.prefix_cons_iff.1 hfront with rfl | ⟨front, rfl, hprefix⟩
        · simpa using q.isStorable_baseValue
        · rw [← counted_of_checkedAdd hm]
          exact hpartial front hprefix
    · rintro ⟨hdims, hpartial, hsd, hsv⟩
      rw [List.forall_mem_cons] at hdims
      obtain ⟨hd, hdims⟩ := hdims
      have hfirst : IsStorable (q.baseValue.toInt + r.baseValue.toInt) := by
        simpa using hpartial [r] (List.prefix_append [r] rs)
      obtain ⟨m, hm⟩ := exists_checkedAdd hd.symm hfirst
      obtain ⟨-, hmd, -⟩ := checkedAdd_eq_ok_iff.1 hm
      rw [bind_of_eq_ok hm, ih]
      refine ⟨fun x hx => (hdims x hx).trans hmd.symm, fun front hfront => ?_, hsd.trans hmd.symm,
        hsv.trans (counted_of_checkedAdd hm rs).symm⟩
      rw [counted_of_checkedAdd hm]
      exact hpartial _ ((List.prefix_cons_inj r).2 hfront)

/-- A list is refused for its first quantity that cannot be added to the sum before it. -/
theorem addAll_eq_error_iff {e : UnitError} :
    addAll q rs = .error e ↔
      ∃ front r rest p, rs = front ++ r :: rest ∧ addAll q front = .ok p ∧
        p.checkedAdd r = .error e := by
  induction rs generalizing q with
  | nil => simp
  | cons x rs ih =>
    rw [addAll_cons]
    constructor
    · intro h
      cases hx : q.checkedAdd x with
      | error e' =>
        rw [hx] at h
        cases h
        exact ⟨[], x, rs, q, rfl, rfl, hx⟩
      | ok m =>
        rw [bind_of_eq_ok hx] at h
        obtain ⟨front, r, rest, p, rfl, hfront, hr⟩ := ih.1 h
        exact ⟨x :: front, r, rest, p, rfl, by rw [addAll_cons, bind_of_eq_ok hx, hfront], hr⟩
    · rintro ⟨front, r, rest, p, hsplit, hfront, hr⟩
      cases front with
      | nil =>
        cases hsplit
        cases hfront
        rw [hr]
        rfl
      | cons y front =>
        obtain ⟨rfl, rfl⟩ := List.cons.inj hsplit
        obtain ⟨m, hm, hrest⟩ := exists_of_bind_eq_ok hfront
        rw [bind_of_eq_ok hm]
        exact ih.2 ⟨front, r, rest, p, rfl, hrest, hr⟩

/-! ## Another order -/

theorem counted_perm {qs qs' : List StoredQuantity} (h : qs.Perm qs') : counted qs = counted qs' :=
  (h.map _).sum_eq

/-- No count of the list is negative, or none is positive. -/
def OneSign (rs : List StoredQuantity) : Prop :=
  (∀ r ∈ rs, 0 ≤ r.baseValue.toInt) ∨ ∀ r ∈ rs, r.baseValue.toInt ≤ 0

theorem OneSign.subset {qs : List StoredQuantity} (h : OneSign rs) (hsub : qs ⊆ rs) : OneSign qs :=
  h.imp (fun h r hr => h r (hsub hr)) fun h r hr => h r (hsub hr)

theorem counted_nonneg (h : ∀ r ∈ rs, 0 ≤ r.baseValue.toInt) : 0 ≤ counted rs :=
  List.sum_nonneg (by simpa using h)

theorem counted_nonpos (h : ∀ r ∈ rs, r.baseValue.toInt ≤ 0) : counted rs ≤ 0 := by
  have hsum := List.sum_le_card_nsmul (rs.map fun q => q.baseValue.toInt) 0 (by simpa using h)
  rwa [nsmul_zero] at hsum

/-- Counts of one sign go from the start to the sum without turning back, so the sum alone decides
whether they can be added. -/
theorem exists_addAll_iff (h : OneSign rs) :
    (∃ s, addAll q rs = .ok s) ↔
      (∀ r ∈ rs, r.dimension = q.dimension) ∧ IsStorable (counted (q :: rs)) := by
  constructor
  · rintro ⟨s, hs⟩
    obtain ⟨hdims, hpartial, -⟩ := addAll_eq_ok_iff.1 hs
    exact ⟨hdims, hpartial rs List.prefix_rfl⟩
  · rintro ⟨hdims, hsum⟩
    obtain ⟨w, hw⟩ := Option.isSome_iff_exists.1 ((storable?_isSome_iff _).2 hsum)
    refine ⟨⟨w, q.dimension⟩, addAll_eq_ok_iff.2 ⟨hdims, ?_, rfl, (storable?_eq_some_iff _ _).1 hw⟩⟩
    rintro front ⟨back, rfl⟩
    have hstart := q.isStorable_baseValue
    have hsplit : counted (front ++ back) = counted front + counted back := by
      rw [counted, List.map_append, List.sum_append]
      rfl
    rw [counted_cons, hsplit] at hsum
    rw [counted_cons]
    unfold IsStorable at hstart hsum ⊢
    rcases h with h | h
    · have hfront := counted_nonneg fun r hr => h r (List.mem_append_left back hr)
      have hback := counted_nonneg fun r hr => h r (List.mem_append_right front hr)
      omega
    · have hfront := counted_nonpos fun r hr => h r (List.mem_append_left back hr)
      have hback := counted_nonpos fun r hr => h r (List.mem_append_right front hr)
      omega

/-- Adding stored quantities is exact: it succeeds just when all dimensions agree and all partial
sums are storable, and otherwise the first addition for which that fails is refused for the
dimension or else for the amount.  Another order of the list has the same result where both
succeed, and it succeeds as well where the counts of the list are of one sign. -/
theorem addAll_any_order (q : StoredQuantity) (rs : List StoredQuantity) :
    (∀ s, addAll q rs = .ok s ↔
      (∀ r ∈ rs, r.dimension = q.dimension) ∧
        (∀ front, front <+: rs → IsStorable (counted (q :: front))) ∧
        s.dimension = q.dimension ∧ s.baseValue.toInt = counted (q :: rs)) ∧
    (∀ e, addAll q rs = .error e ↔
      ∃ front r rest p, rs = front ++ r :: rest ∧ addAll q front = .ok p ∧
        (p.dimension ≠ r.dimension ∧
            e = .dimensionMismatch p.dimension.name r.dimension.name r.dimension.baseSymbol ∨
          p.dimension = r.dimension ∧ ¬ IsStorable (p.baseValue.toInt + r.baseValue.toInt) ∧
            e = .invalidQuantity "sum is outside the storable range")) ∧
    ∀ rs', rs.Perm rs' →
      (∀ s s', addAll q rs = .ok s → addAll q rs' = .ok s' → s = s') ∧
        (OneSign rs → ((∃ s, addAll q rs = .ok s) ↔ ∃ s, addAll q rs' = .ok s)) := by
  refine ⟨fun s => addAll_eq_ok_iff, fun e => ?_, fun rs' hperm => ⟨?_, fun hsign => ?_⟩⟩
  · rw [addAll_eq_error_iff]
    simp only [checkedAdd_eq_error_iff]
  · intro s s' hs hs'
    obtain ⟨-, -, hd, hv⟩ := addAll_eq_ok_iff.1 hs
    obtain ⟨-, -, hd', hv'⟩ := addAll_eq_ok_iff.1 hs'
    exact eq_iff_toInt.2 ⟨hd.trans hd'.symm, by rw [hv, hv', counted_perm (hperm.cons q)]⟩
  · have hsum := counted_perm (hperm.cons q)
    rw [exists_addAll_iff hsign, exists_addAll_iff (hsign.subset hperm.symm.subset), hsum]
    simp only [hperm.mem_iff]

/-- Where counts of both signs meet, a sum on the way can be too large in one order only. -/
example :
    addAll ⟨9223372036854775807, .count⟩ [⟨1, .count⟩, ⟨-1, .count⟩] =
        .error (.invalidQuantity "sum is outside the storable range") ∧
      addAll ⟨9223372036854775807, .count⟩ [⟨-1, .count⟩, ⟨1, .count⟩] =
        .ok ⟨9223372036854775807, .count⟩ := by
  decide

end UnitLedger.StoredQuantity
