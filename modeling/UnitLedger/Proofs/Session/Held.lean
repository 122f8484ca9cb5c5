import UnitLedger.Proofs.Price
import UnitLedger.Proofs.Quantity.Count
import UnitLedger.Proofs.Format
import UnitLedger.Proofs.Session.Total
set_option autoImplicit false

/-! # Values that a session holds

Whatever a session is asked, what it holds stays usable: doubles are finite, units are those of the
registry, and the options are allowed ones.  A step changes one value at most, and to what passed a
check (`changes_of_step`), so each step keeps this (`Usable.of_changes`) and so does a run
(`Usable.run`).  Therefore no held value makes a later step fail in an unforeseen way
(`Reachable.usable`).
-/

namespace UnitLedger

open Registry Binary64 Exact

/-! ## Results that are held -/

theorem UnitPrice.finite_of_ofPrice {d : Dimension} {price : Binary64} {symbol : String}
    {p : UnitPrice} (h : ofPrice d price symbol = .ok p) : ∃ y : Finite, p = ⟨.finite y, d⟩ := by
  obtain ⟨unit, -, h⟩ := exists_of_bind_eq_ok h
  obtain ⟨exact, -, h⟩ := exists_of_bind_eq_ok h
  obtain ⟨perBase, -, h⟩ := exists_of_bind_eq_ok h
  obtain ⟨y, -, h⟩ := exists_of_bind_eq_ok h
  cases h
  exact ⟨y, rfl⟩

theorem StoredQuantity.unit_mem_of_toDisplay {s : StoredQuantity} {symbol : String}
    {q : DisplayQuantity} (h : s.toDisplay symbol = .ok q) : q.unit ∈ builtin.units := by
  obtain ⟨value, -, h⟩ := exists_of_bind_eq_ok h
  obtain ⟨unit, hunit, h⟩ := exists_of_bind_eq_ok h
  cases h
  exact mem_units_of_find? (lookup_eq_ok_iff.1 (resolveFor_eq_ok_iff.1 hunit)).1

namespace DisplayQuantity

variable {q r : DisplayQuantity} {symbol : String}

theorem unit_mem_of_ofValue {d : Dimension} {value : Binary64}
    (h : ofValue d value symbol = .ok q) : q.unit ∈ builtin.units := by
  cases value with
  | finite x =>
    unfold ofValue at h
    cases hlookup : builtin.lookup d symbol with
    | error e =>
      rw [hlookup] at h
      cases h
    | ok unit =>
      rw [hlookup] at h
      cases h
      exact mem_units_of_find? (lookup_eq_ok_iff.1 hlookup).1
  | infinite negative => cases h
  | nan => cases h

theorem unit_mem_of_convertTo (h : q.convertTo symbol = .ok r) : r.unit ∈ builtin.units := by
  obtain ⟨unit, hunit, h⟩ := exists_of_bind_eq_ok h
  obtain ⟨value, -, h⟩ := exists_of_bind_eq_ok h
  cases h
  exact mem_units_of_find? (lookup_eq_ok_iff.1 (resolveFor_eq_ok_iff.1 hunit)).1

end DisplayQuantity

theorem DisplayOptions.isValid_of_ofJson {text : String} {o : DisplayOptions}
    (h : ofJson text = .ok o) : o.IsValid := by
  unfold ofJson at h
  split at h
  · cases h
  · next p _ =>
    cases hvalid : p.validate with
    | error e =>
      rw [hvalid] at h
      cases h
    | ok r =>
      rw [hvalid] at h
      cases h
      obtain ⟨rfl, hp⟩ := validate_eq_ok_iff.1 hvalid
      exact hp

namespace Session

/-! ## One step -/

/-- What a step that succeeds can do to a session. -/
inductive Changes (s : Session) : Session → Prop
  | kept : Changes s s
  | stored (q : StoredQuantity) : Changes s { s with stored := some q }
  | display (q : DisplayQuantity) (registered : q.unit ∈ builtin.units) :
      Changes s { s with display := some q }
  | price (y : Finite) (d : Dimension) : Changes s { s with price := some ⟨.finite y, d⟩ }
  | parsed (e : Option Entry) : Changes s { s with parsed := e }
  | total (x : Finite) : Changes s { s with total := some x }
  | options (o : DisplayOptions) (valid : o.IsValid) : Changes s { s with options := o }

theorem changes_of_step {s next : Session} {t : Step} {answer : Answer}
    (h : s.step t = .ok (next, answer)) : s.Changes next := by
  cases t with
  | store dimension value unit =>
    obtain ⟨d, -, h⟩ := exists_of_bind_eq_ok h
    obtain ⟨q, -, h⟩ := exists_of_bind_eq_ok h
    cases h
    exact .stored q
  | set dimension baseValue =>
    obtain ⟨d, -, h⟩ := exists_of_bind_eq_ok h
    cases h
    exact .stored _
  | zero dimension =>
    obtain ⟨d, -, h⟩ := exists_of_bind_eq_ok h
    cases h
    exact .stored _
  | add dimension baseValue =>
    obtain ⟨stored, -, h⟩ := exists_of_bind_eq_ok h
    obtain ⟨d, -, h⟩ := exists_of_bind_eq_ok h
    obtain ⟨sum, -, h⟩ := exists_of_bind_eq_ok h
    cases h
    exact .stored sum
  | addValue value unit =>
    obtain ⟨stored, -, h⟩ := exists_of_bind_eq_ok h
    obtain ⟨q, -, h⟩ := exists_of_bind_eq_ok h
    obtain ⟨sum, -, h⟩ := exists_of_bind_eq_ok h
    cases h
    exact .stored sum
  | showIn unit =>
    obtain ⟨stored, -, h⟩ := exists_of_bind_eq_ok h
    obtain ⟨q, hq, h⟩ := exists_of_bind_eq_ok h
    cases h
    exact .display q (StoredQuantity.unit_mem_of_toDisplay (eq_ok_of_attempt hq))
  | display dimension value unit =>
    obtain ⟨d, -, h⟩ := exists_of_bind_eq_ok h
    obtain ⟨q, hq, h⟩ := exists_of_bind_eq_ok h
    cases h
    exact .display q (DisplayQuantity.unit_mem_of_ofValue (eq_ok_of_attempt hq))
  | convert unit =>
    obtain ⟨display, -, h⟩ := exists_of_bind_eq_ok h
    obtain ⟨q, hq, h⟩ := exists_of_bind_eq_ok h
    cases h
    exact .display q (DisplayQuantity.unit_mem_of_convertTo (eq_ok_of_attempt hq))
  | restore =>
    obtain ⟨display, -, h⟩ := exists_of_bind_eq_ok h
    obtain ⟨q, -, h⟩ := exists_of_bind_eq_ok h
    cases h
    exact .stored q
  | parse text =>
    cases h
    exact .parsed _
  | storeParsed dimension defaultUnit =>
    obtain ⟨d, -, h⟩ := exists_of_bind_eq_ok h
    obtain ⟨parsed, -, h⟩ := exists_of_bind_eq_ok h
    obtain ⟨q, -, h⟩ := exists_of_bind_eq_ok h
    cases h
    exact .stored q
  | price dimension price unit =>
    obtain ⟨d, -, h⟩ := exists_of_bind_eq_ok h
    obtain ⟨p, hp, h⟩ := exists_of_bind_eq_ok h
    cases h
    obtain ⟨y, rfl⟩ := UnitPrice.finite_of_ofPrice (eq_ok_of_attempt hp)
    exact .price y d
  | total =>
    obtain ⟨price, -, h⟩ := exists_of_bind_eq_ok h
    obtain ⟨stored, -, h⟩ := exists_of_bind_eq_ok h
    obtain ⟨x, -, h⟩ := exists_of_bind_eq_ok h
    cases h
    exact .total x
  | perUnit unit =>
    obtain ⟨price, -, h⟩ := exists_of_bind_eq_ok h
    obtain ⟨x, -, h⟩ := exists_of_bind_eq_ok h
    cases h
    exact .kept
  | options json =>
    obtain ⟨o, ho, h⟩ := exists_of_bind_eq_ok h
    cases h
    cases hjson : DisplayOptions.ofJson json with
    | error f =>
      rw [hjson] at ho
      cases ho
    | ok p =>
      rw [hjson] at ho
      cases ho
      exact .options o (DisplayOptions.isValid_of_ofJson hjson)
  | format unit =>
    obtain ⟨stored, -, h⟩ := exists_of_bind_eq_ok h
    obtain ⟨text, -, h⟩ := exists_of_bind_eq_ok h
    cases h
    exact .kept
  | formatDisplay =>
    obtain ⟨display, -, h⟩ := exists_of_bind_eq_ok h
    obtain ⟨text, -, h⟩ := exists_of_bind_eq_ok h
    cases h
    exact .kept
  | money amount =>
    obtain ⟨text, -, h⟩ := exists_of_bind_eq_ok h
    cases h
    exact .kept
  | moneyTotal =>
    obtain ⟨total, -, h⟩ := exists_of_bind_eq_ok h
    obtain ⟨text, -, h⟩ := exists_of_bind_eq_ok h
    cases h
    exact .kept

/-! ## What is kept -/

/-- The doubles that a session holds: the value that is shown, the price per base unit, the number
that was read and the total. -/
def doubles (s : Session) : List Binary64 :=
  (s.display.map fun q => .finite q.value).toList ++ (s.price.map (·.perBase)).toList ++
    (s.parsed.map fun e => .finite e.quantity).toList ++ (s.total.map .finite).toList

/-- Every value that a session holds can be worked with. -/
structure Usable (s : Session) : Prop where
  finite : ∀ x ∈ s.doubles, x.isFinite = true
  registered : ∀ q, s.display = some q → builtin.find? q.unit.symbol = some q.unit
  valid : s.options.IsValid

theorem mem_doubles {s : Session} {x : Binary64} :
    x ∈ s.doubles ↔ (∃ q, s.display = some q ∧ .finite q.value = x) ∨
      (∃ p, s.price = some p ∧ p.perBase = x) ∨ (∃ e, s.parsed = some e ∧ .finite e.quantity = x) ∨
      ∃ y, s.total = some y ∧ .finite y = x := by
  simp only [doubles, List.mem_append, Option.mem_toList, Option.map_eq_some_iff,
    or_assoc]

/-- Only a price can be other than finite, for it alone is a double of any kind. -/
theorem finite_iff (s : Session) :
    (∀ x ∈ s.doubles, x.isFinite = true) ↔
      ∀ p, s.price = some p → p.perBase.isFinite = true := by
  constructor
  · intro h p hp
    exact h _ (mem_doubles.2 (Or.inr (Or.inl ⟨p, hp, rfl⟩)))
  · intro h x hx
    rcases mem_doubles.1 hx with ⟨q, -, rfl⟩ | ⟨p, hp, rfl⟩ | ⟨e, -, rfl⟩ | ⟨y, -, rfl⟩
    · rfl
    · exact h p hp
    · rfl
    · rfl

theorem usable_initial : initial.Usable := by
  refine ⟨(finite_iff initial).2 fun p hp => ?_, fun q hq => ?_, by decide, by decide⟩
  · cases hp
  · cases hq

namespace Usable

variable {s next : Session}

/-- The price is finite, so it is a number to compute with. -/
theorem exists_price (h : s.Usable) {p : UnitPrice} (hp : s.price = some p) :
    ∃ y : Finite, p = ⟨.finite y, p.dimension⟩ := by
  have hfinite := (finite_iff s).1 h.finite p hp
  obtain ⟨perBase, d⟩ := p
  cases perBase with
  | finite y => exact ⟨y, rfl⟩
  | infinite negative => cases hfinite
  | nan => cases hfinite

theorem of_changes (h : s.Usable) (hchanges : s.Changes next) : next.Usable := by
  have hprice := (finite_iff s).1 h.finite
  cases hchanges with
  | kept => exact h
  | stored q => exact ⟨h.finite, h.registered, h.valid⟩
  | display q hq =>
    refine ⟨(finite_iff _).2 hprice, fun r hr => ?_, h.valid⟩
    obtain rfl := Option.some.inj hr
    exact find?_symbol q.unit hq
  | price y d =>
    refine ⟨(finite_iff _).2 fun p hp => ?_, h.registered, h.valid⟩
    obtain rfl := Option.some.inj hp
    rfl
  | parsed e => exact ⟨(finite_iff _).2 hprice, h.registered, h.valid⟩
  | total x => exact ⟨(finite_iff _).2 hprice, h.registered, h.valid⟩
  | options o ho => exact ⟨h.finite, h.registered, ho⟩

/-- Any step keeps the values usable, whether it succeeds or fails. -/
theorem after (h : s.Usable) (t : Step) : (s.after t).Usable := by
  unfold Session.after
  split
  · next hstep => exact h.of_changes (changes_of_step hstep)
  · exact h

theorem run (h : s.Usable) (steps : List Step) : (s.run steps).Usable := by
  induction steps generalizing s with
  | nil => exact h
  | cons t rest ih => exact ih (h.after t)

end Usable

/-! ## What later steps answer -/

theorem need_of_eq_some {α : Type} {held : Option α} {a : α} (h : held = some a) :
    need held = .ok a := by
  rw [h]
  rfl

/-- What a step answers when its last computation succeeds or is refused. -/
theorem attempt_of_eq_ok {α : Type} {r : Except UnitError α} {a : α} (h : r = .ok a) :
    attempt r = .ok a := by
  rw [h]
  rfl

theorem attempt_bind_of_eq_error {α β : Type} {r : Except UnitError α} {e : UnitError}
    (h : r = .error e) (f : α → Except Fault β) : attempt r >>= f = .error (.error e) := by
  rw [h]
  rfl

variable {s : Session}

/-- A quantity that is shown can always be written. -/
theorem exists_step_formatDisplay {q : DisplayQuantity} (hq : s.display = some q) :
    ∃ text, s.step .formatDisplay = .ok (s, .text text) := by
  obtain ⟨number, hnumber⟩ :=
    Format.value_ok (Decimal.ofFinite q.value) q.dimension.isCount s.options.quantityDecimals.toNat
  have htext := Format.display_eq_of_value hnumber
  refine ⟨number ++ " " ++ q.unit.symbol, ?_⟩
  rw [step, bind_of_eq_ok (need_of_eq_some hq), bind_of_eq_ok (attempt_of_eq_ok htext)]
  rfl

/-- A total can always be written. -/
theorem exists_step_moneyTotal {x : Finite} (hx : s.total = some x) :
    ∃ text, s.step .moneyTotal = .ok (s, .text text) := by
  obtain ⟨text, hvalue⟩ :=
    Format.value_ok (Decimal.ofFinite x) false s.options.moneyDecimals.toNat
  have htext := (Format.money_finite x s.options).trans hvalue
  refine ⟨text, ?_⟩
  rw [step, bind_of_eq_ok (need_of_eq_some hx), bind_of_eq_ok (attempt_of_eq_ok htext)]
  rfl

/-- The outcome of storing the quantity that is shown: an integer within one half of the exact
number of base units, or a refusal of the amount when that number, rounded, is beyond the signed
64-bit words. -/
def Restores (s : Session) (q : DisplayQuantity) : Prop :=
  ∃ f, exactFactor? q.unit.symbol = some f ∧
    if StoredQuantity.IsStorable (halfAway (q.value.writtenValue * f)) then
      ∃ n : Int64, |n.toInt - q.value.writtenValue * f| ≤ 1 / 2 ∧
        s.step .restore = .ok (s.putStored ⟨n, q.dimension⟩)
    else ∃ detail, s.step .restore = .error (.error (.invalidQuantity detail))

/-- The outcome of working out a total: a mismatch of the dimensions, the total, or a refusal of an
amount beyond the doubles. -/
def Totals (s : Session) (p : UnitPrice) (q : StoredQuantity) : Prop :=
  if q.dimension = p.dimension then
    ∃ y : Finite, p.perBase = .finite y ∧
      if |y.writtenValue * q.baseValue.toInt| < overflowThreshold then
        ∃ x : Finite, s.step .total = .ok ({ s with total := some x }, .double (.finite x))
      else ∃ detail, s.step .total = .error (.error (.invalidQuantity detail))
  else
    s.step .total = .error (.error (.dimensionMismatch p.dimension.name q.dimension.name
      q.dimension.baseSymbol))

namespace Usable

/-- The unit that is shown is found again under its own symbol, so only the amount can be
refused. -/
theorem restores (h : s.Usable) {q : DisplayQuantity} (hq : s.display = some q) :
    s.Restores q := by
  have hfound := h.registered q hq
  obtain ⟨f, hf⟩ := Option.isSome_iff_exists.1 (isSome_exactFactor (mem_units_of_find? hfound))
  obtain ⟨n, hstores, hnear, hfits⟩ := StoredQuantity.exists_count hfound rfl hf q.value
  refine ⟨f, hf, ?_⟩
  unfold StoredQuantity.Stores at hstores
  rw [step, bind_of_eq_ok (need_of_eq_some hq)]
  split at hstores
  · next hin =>
    obtain ⟨w, rfl, hok⟩ := hstores
    have hstored : q.toStored = .ok ⟨w, q.dimension⟩ := hok
    rw [if_pos (hfits.1 hin), bind_of_eq_ok (attempt_of_eq_ok hstored)]
    exact ⟨w, hnear, rfl⟩
  · next hout =>
    obtain ⟨detail, herror⟩ := hstores
    rw [if_neg fun hin => hout (hfits.2 hin)]
    exact ⟨detail, attempt_bind_of_eq_error herror _⟩

/-- The price is finite, so only the dimensions or the amount can be refused. -/
theorem totals (h : s.Usable) {p : UnitPrice} {q : StoredQuantity} (hp : s.price = some p)
    (hq : s.stored = some q) : s.Totals p q := by
  obtain ⟨y, hy⟩ := h.exists_price hp
  unfold Totals
  rw [step, bind_of_eq_ok (need_of_eq_some hp), bind_of_eq_ok (need_of_eq_some hq)]
  split
  · next hd =>
    have hleaves := UnitPrice.leaves_totalFor y hd
    rw [← hy] at hleaves
    refine ⟨y, by rw [hy], ?_⟩
    split
    · next hlt =>
      obtain ⟨x, hx, -⟩ := hleaves.exists_ok hlt
      rw [bind_of_eq_ok (attempt_of_eq_ok hx)]
      exact ⟨x, rfl⟩
    · next hge =>
      obtain ⟨detail, herror⟩ := hleaves.refused (not_lt.1 hge)
      exact ⟨detail, attempt_bind_of_eq_error herror _⟩
  · next hd =>
    apply attempt_bind_of_eq_error
    rw [UnitPrice.totalFor, if_neg hd]

end Usable

/-- The session is left by some run of steps from the empty one. -/
def Reachable (s : Session) : Prop := ∃ steps, initial.run steps = s

/-- What a session holds after any run is usable, and so the steps that work on it go well: what is
shown and what is totalled can be written, a total is refused only for its dimensions or for an
amount beyond the doubles, and what is shown is refused to be stored only for an amount beyond the
words. -/
theorem Reachable.usable (h : s.Reachable) :
    s.Usable ∧
      (∀ q, s.display = some q →
        (∃ text, s.step .formatDisplay = .ok (s, .text text)) ∧ s.Restores q) ∧
      (∀ x, s.total = some x → ∃ text, s.step .moneyTotal = .ok (s, .text text)) ∧
      ∀ p q, s.price = some p → s.stored = some q → s.Totals p q := by
  obtain ⟨steps, rfl⟩ := h
  have husable := usable_initial.run steps
  exact ⟨husable, fun q hq => ⟨exists_step_formatDisplay hq, husable.restores hq⟩,
    fun x hx => exists_step_moneyTotal hx, fun p q hp hq => husable.totals hp hq⟩

/-- Steps that set every value: two and a half tonnes at 19.99 a kilogram, `1e308` square kilometres
that are too many for square inches, an entry, and options. -/
def fullSteps : List Step :=
  [.store "weight" (.finite ⟨false, 5497558138880000, -41, by decide⟩) "kg",
    .price "weight" (.finite ⟨false, 5626684784446013, -48, by decide⟩) "kg", .total,
    .display "area" (.finite ⟨false, 5010420900022432, 971, by decide⟩) "km2", .convert "in2",
    .parse "7 st", .options "\x7b\"quantity_decimals\":12\x7d"]

/-- The session that they leave. -/
def full : Session where
  stored := some ⟨2500000000, .weight⟩
  display := some ⟨⟨false, 5010420900022432, 971, by decide⟩,
    ⟨"km2", "square kilometer", .area, .metric, ⟨1, 12, 50, by decide⟩⟩⟩
  price := some ⟨.finite ⟨false, 5900006624535263, -68, by decide⟩, .weight⟩
  parsed := some ⟨⟨false, 7881299347898368, -50, by decide⟩, some "ST", .imperial⟩
  total := some ⟨false, 6868511699763200, -37, by decide⟩
  options := ⟨.metric, 12, 2⟩

/-- A session in which everything is set. -/
theorem Reachable.usable_full :
    full.Reachable ∧ full.Usable ∧
      (∃ text, full.step .formatDisplay = .ok (full, .text text)) ∧
      full.Restores ⟨⟨false, 5010420900022432, 971, by decide⟩,
        ⟨"km2", "square kilometer", .area, .metric, ⟨1, 12, 50, by decide⟩⟩⟩ ∧
      (∃ text, full.step .moneyTotal = .ok (full, .text text)) ∧
      full.Totals ⟨.finite ⟨false, 5900006624535263, -68, by decide⟩, .weight⟩
        ⟨2500000000, .weight⟩ := by
  have hreachable : full.Reachable := ⟨fullSteps, by decide +kernel⟩
  obtain ⟨husable, hdisplay, htotal, hprice⟩ := Reachable.usable hreachable
  obtain ⟨hformat, hrestores⟩ := hdisplay _ rfl
  exact ⟨hreachable, husable, hformat, hrestores, htotal _ rfl, hprice _ _ rfl rfl⟩

end Session

end UnitLedger
