import UnitLedger.Json.Record
import UnitLedger.Proofs.Binary64.Unique
import UnitLedger.Proofs.Json.Text
set_option autoImplicit false

/-! # Records come back from JSON

What is written for a record is read as the same record (`read?_write_records`): the fields are
found under their names whichever of them are left out (`fields?_given`), integers are written with
all their digits, and a double is read from its shortest digits (`double?_ofDouble`).
-/

namespace UnitLedger.Json

open Numeral Binary64

theorem Codec.read?_write {α : Type} (f : Codec α) {a : α} (h : (f.encode a).IsProper) :
    f.read? (f.write a) = f.decode (f.encode a) := by
  unfold Codec.read? write Value.text
  rw [String.toList_ofList, Json.read?_print h]
  rfl

/-! ## Fields -/

/-- The members of a record: the fields that are given, under their names. -/
def given (names : List String) (values : List (Option Value)) : List (String × Value) :=
  (names.zip values).filterMap fun (name, value) => value.map (name, ·)

variable {before after names : List String} {name : String}
  {done rest values : List (Option Value)}

theorem findIdx?_name (h : name ∉ before) :
    (before ++ name :: after).findIdx? (fun n => n.toList = name.toList) = some before.length := by
  have hnone : before.findIdx? (fun n => n.toList = name.toList) = none := by
    rw [List.findIdx?_eq_none_iff]
    intro n hn
    have hne : n ≠ name := fun heq => h (heq ▸ hn)
    rw [decide_eq_false_iff_not, String.toList_inj]
    exact hne
  rw [List.findIdx?_append, hnone, List.findIdx?_cons]
  simp

/-- A field that is empty yet is filled. -/
theorem setField_name (h : name ∉ before) (hlength : done.length = before.length) (v : Value) :
    setField (before ++ name :: after) (done ++ none :: rest) name.toList v =
      some (done ++ some v :: rest) := by
  have hempty : (done ++ none :: rest)[before.length]? = some none := by
    rw [← hlength]
    simp
  have hset : (done ++ none :: rest).set before.length (some v) = done ++ some v :: rest := by
    rw [← hlength]
    simp
  unfold setField
  rw [findIdx?_name h]
  dsimp only
  rw [hempty]
  dsimp only
  rw [hset]

-- The induction is on the fields still to come; those before them are done.
theorem collect_given (hnames : (before ++ names).Nodup) (hdone : done.length = before.length)
    (hvalues : values.length = names.length) :
    collect (before ++ names) (done ++ names.map fun _ => none)
      ((given names values).map fun m => (some m.1.toList, m.2)) = some (done ++ values) := by
  induction names generalizing before done values with
  | nil =>
    rw [List.length_eq_zero_iff.1 hvalues]
    rfl
  | cons name names ih =>
    obtain ⟨value, others, rfl⟩ := List.exists_cons_of_length_eq_add_one hvalues
    have hnew : name ∉ before := by
      intro hmem
      exact (List.nodup_append.1 hnames).2.2 name hmem name List.mem_cons_self rfl
    have hothers : others.length = names.length := Nat.succ.inj hvalues
    have hnext := @ih (before ++ [name])
    rw [List.append_assoc, List.singleton_append] at hnext
    cases value with
    | none =>
      have hrest := @hnext (done ++ [none]) others hnames (by simp [hdone]) hothers
      rw [List.append_assoc, List.append_assoc] at hrest
      exact hrest
    | some v =>
      have hrest := @hnext (done ++ [some v]) others hnames (by simp [hdone]) hothers
      rw [List.append_assoc, List.append_assoc] at hrest
      show (setField _ _ _ _).bind _ = _
      rw [List.map_cons, setField_name hnew hdone]
      exact hrest

/-- The fields of a record are read from its members. -/
theorem fields?_given (names : List String) (values : List (Option Value)) (hnames : names.Nodup)
    (hvalues : values.length = names.length) (mayStop : Bool) :
    fields? names mayStop (.ofMembers (given names values)) = some values :=
  @collect_given [] names [] values hnames rfl hvalues

/-! ## Simple values -/

theorem isProper_ofText (s : String) : (Value.ofText s).IsProper := by
  rw [Value.ofText, Value.IsProper]
  trivial

theorem isProper_ofMembers {members : List (String × Value)}
    (h : ∀ m ∈ members, m.2.IsProper) : (Value.ofMembers members).IsProper := by
  rw [Value.ofMembers, Value.IsProper]
  induction members with
  | nil =>
    rw [List.map_nil, HaveProperValues]
    trivial
  | cons m members ih =>
    rw [List.forall_mem_cons] at h
    rw [List.map_cons, HaveProperValues]
    exact ⟨h.1, ih h.2⟩

/-- A choice is read from its name when no other choice has it. -/
theorem decode_choice {α : Type} {all : List α} {name : α → String} {a : α} (ha : a ∈ all)
    (hname : ∀ b ∈ all, name b = name a → b = a) :
    (choice all name).decode ((choice all name).encode a) = some a := by
  show all.find? (fun b => (name b).toList = (name a).toList) = some a
  cases hfind : all.find? (fun b => (name b).toList = (name a).toList) with
  | none =>
    have hnot := List.find?_eq_none.1 hfind a ha
    exact absurd (decide_eq_true rfl) hnot
  | some b =>
    have hsame : (name b).toList = (name a).toList := by simpa using List.find?_some hfind
    rw [hname b (List.mem_of_find?_eq_some hfind) (String.toList_inj.1 hsame)]

theorem decode_dimension (d : Dimension) : dimension.decode (dimension.encode d) = some d :=
  decode_choice (Dimension.mem_all d) (by cases d <;> decide)

theorem decode_unitSystem (s : UnitSystem) : unitSystem.decode (unitSystem.encode s) = some s :=
  decode_choice (by cases s <;> decide) (by cases s <;> decide)

theorem decode_entrySystem (s : EntrySystem) : entrySystem.decode (entrySystem.encode s) = some s :=
  decode_choice (by cases s <;> decide) (by cases s <;> decide)

theorem decode_severity (s : Severity) : severity.decode (severity.encode s) = some s :=
  decode_choice (by cases s <;> decide) (by cases s <;> decide)

theorem text?_ofText (s : String) : (Value.ofText s).text? = some s := by
  rw [Value.ofText, Value.text?, String.ofList_toList]

/-! ## Integers -/

theorem isProper_ofInt (n : Int) : (Value.ofInt n).IsProper := by
  rw [Value.ofInt, Value.IsProper]
  exact
    { whole_ne_nil := Nat.toDigits_ne_nil
      whole_digits := fun c hc => isDigit_of_mem_toDigits hc
      no_leading_zero := fun h => by
        rw [eq_zero_of_head?_toDigits h]
        rfl
      fraction_digits := nofun }

theorem integer?_ofInt (n : Int) : (Value.ofInt n).integer? = some n := by
  rw [Value.ofInt, Value.integer?]
  dsimp only
  rw [Nat.ofDigitChars_ten_toDigits, if_pos]
  · by_cases h : n < 0
    · rw [if_pos (decide_eq_true h)]
      exact congrArg some (by omega)
    · rw [if_neg (by simpa using h)]
      exact congrArg some (by omega)
  · refine ⟨rfl, ?_⟩
    rintro ⟨hneg, hzero⟩
    have : n < 0 := of_decide_eq_true hneg
    omega

theorem int64?_ofInt (n : Int64) : (Value.ofInt n.toInt).int64? = some n := by
  rw [Value.int64?, integer?_ofInt, Option.bind_some, storable?_eq_some_iff]

theorem uint32?_ofInt (n : UInt32) : (Value.ofInt n.toNat).uint32? = some n := by
  have hlt : n.toNat < 2 ^ 32 := n.toNat_lt
  rw [Value.uint32?, integer?_ofInt, Option.bind_some, if_pos (by omega), Int.toNat_natCast,
    UInt32.ofNat_toNat]

/-! ## Doubles -/

theorem length_toDigits {n : Nat} (h : n ≠ 0) : (Nat.toDigits 10 n).length = digitCount n := by
  have hiff : ∀ k, 0 < k → ((Nat.toDigits 10 n).length ≤ k ↔ digitCount n ≤ k) := by
    intro k hk
    rw [Nat.length_toDigits_le_iff (by decide) hk, digitCount_le_iff]
  have hpos := (digitCount_pos_iff n).2 h
  have hnonempty := List.length_pos_iff.2 (Nat.toDigits_ne_nil (b := 10) (n := n))
  exact Nat.le_antisymm ((hiff _ hpos).2 (Nat.le_refl _)) ((hiff _ hnonempty).1 (Nat.le_refl _))

/-- The magnitude that a literal writes. -/
def Number.magnitude (n : Number) : Rat :=
  Nat.ofDigitChars 10 (n.whole ++ n.fraction) 0 *
    (10 : Rat) ^ (n.exponent.getD 0 - n.fraction.length)

theorem magnitude_positionalLiteral (negative : Bool) (d : Finite.Digits) :
    (positionalLiteral negative d).magnitude = d.digits * (10 : Rat) ^ d.exponent := by
  have hscaled : (d.digits * (10 : Rat) ^ d.exponent) =
      (d.digits * 10 ^ d.exponent.toNat : Nat) / 10 ^ (-d.exponent).toNat := by
    rw [zpow_eq_div_pow_toNat]
    push_cast
    ring
  rw [hscaled, Number.magnitude, positionalLiteral]
  dsimp only
  generalize d.digits * 10 ^ d.exponent.toNat = scaled
  generalize (-d.exponent).toNat = places
  by_cases hplaces : places = 0
  · -- a whole number has a zero behind its point
    have hdigits : Nat.ofDigitChars 10 (Nat.toDigits 10 scaled ++ ['0']) 0 = 10 * scaled := by
      rw [Nat.ofDigitChars_append, Nat.ofDigitChars_ten_toDigits]
      rfl
    rw [if_pos hplaces, hplaces, pow_zero, pow_zero, Nat.div_one, div_one, hdigits]
    norm_num
    ring
  · have hdigits := ofDigitChars_fixedDigits scaled places
    have hlength := length_fraction scaled places
    unfold fixedDigits at hdigits
    rw [if_neg hplaces] at hdigits hlength
    rw [if_neg hplaces, hdigits, hlength, Option.getD_none, zero_sub, zpow_neg, zpow_natCast,
      div_eq_mul_inv]

theorem magnitude_exponentLiteral (negative : Bool) {d : Finite.Digits} (h : d.digits ≠ 0) :
    (exponentLiteral negative d (d.exponent + digitCount d.digits - 1)).magnitude =
      d.digits * (10 : Rat) ^ d.exponent := by
  have hlength := length_toDigits h
  have hpos := (digitCount_pos_iff d.digits).2 h
  rw [Number.magnitude, exponentLiteral]
  dsimp only
  rw [List.take_append_drop, Nat.ofDigitChars_ten_toDigits, List.length_drop, hlength,
    Option.getD_some]
  congr 2
  omega

/-- The literal of a double writes its shortest decimal. -/
theorem magnitude_literalOf (x : Finite) :
    (literalOf x).magnitude =
      (x.shortest .toEven).digits * (10 : Rat) ^ (x.shortest .toEven).exponent := by
  unfold literalOf
  dsimp only
  split
  · exact magnitude_positionalLiteral _ _
  · next h => exact magnitude_exponentLiteral _ (not_or.1 h).1

theorem negative_literalOf (x : Finite) : (literalOf x).negative = x.negative := by
  unfold literalOf
  dsimp only
  split <;> rfl

/-- A double is read from its literal. -/
theorem double?_ofDouble (x : Finite) : (Value.ofDouble x).double? = some x := by
  have hnearest : (literalOf x).nearest = .finite x := by
    unfold Number.nearest
    rw [negative_literalOf]
    exact ofDecimal_shortest x .toEven (magnitude_literalOf x)
  rw [Value.ofDouble, Value.double?, hnearest]

theorem isProper_positionalLiteral (negative : Bool) (d : Finite.Digits) :
    (positionalLiteral negative d).IsProper where
  whole_ne_nil := Nat.toDigits_ne_nil
  whole_digits _ hc := isDigit_of_mem_toDigits hc
  no_leading_zero h := by
    unfold positionalLiteral at h ⊢
    dsimp only at h ⊢
    rw [eq_zero_of_head?_toDigits h]
    rfl
  fraction_digits c hc := by
    unfold positionalLiteral at hc
    dsimp only at hc
    split at hc
    · rw [List.mem_singleton.1 hc]
      rfl
    · exact isDigit_of_mem_padded hc

theorem isProper_exponentLiteral (negative : Bool) (d : Finite.Digits) (leading : Int) :
    (exponentLiteral negative d leading).IsProper := by
  have hdigits : ∀ c ∈ Nat.toDigits 10 d.digits, c.isDigit = true :=
    fun c hc => isDigit_of_mem_toDigits hc
  obtain ⟨first, others, hcons⟩ :=
    List.exists_cons_of_ne_nil (Nat.toDigits_ne_nil (b := 10) (n := d.digits))
  unfold exponentLiteral
  rw [hcons] at hdigits ⊢
  rw [List.forall_mem_cons] at hdigits
  exact
    { whole_ne_nil := List.cons_ne_nil _ _
      whole_digits := fun c hc => by
        rw [List.mem_singleton.1 hc]
        exact hdigits.1
      no_leading_zero := fun h => by
        obtain rfl := Option.some.inj h
        rfl
      fraction_digits := hdigits.2 }

theorem isProper_ofDouble (x : Finite) : (Value.ofDouble x).IsProper := by
  rw [Value.ofDouble, Value.IsProper]
  unfold literalOf
  dsimp only
  split
  · exact isProper_positionalLiteral _ _
  · exact isProper_exponentLiteral _ _ _

/-! ## The records -/

theorem read?_write_storedQuantity (q : StoredQuantity) :
    storedQuantity.read? (storedQuantity.write q) = some q := by
  have hfields : fields? ["base_value", "dimension"] false (storedQuantity.encode q) =
      some [some (.ofInt q.baseValue.toInt), some (dimension.encode q.dimension)] :=
    fields?_given ["base_value", "dimension"] [some _, some _] (by decide) rfl false
  rw [Codec.read?_write]
  · generalize storedQuantity.encode q = v at hfields ⊢
    unfold storedQuantity
    dsimp only
    rw [hfields]
    simp only [required, Option.bind_some, int64?_ofInt, decode_dimension]
    rfl
  · apply isProper_ofMembers
    simp only [List.forall_mem_cons]
    exact ⟨isProper_ofInt _, isProper_ofText _, nofun⟩

theorem read?_write_unitPrice (x : Finite) (d : Dimension) :
    unitPrice.read? (unitPrice.write ⟨.finite x, d⟩) = some ⟨.finite x, d⟩ := by
  have hfields : fields? ["price_per_base", "dimension"] false (unitPrice.encode ⟨.finite x, d⟩) =
      some [some (.ofDouble x), some (dimension.encode d)] :=
    fields?_given ["price_per_base", "dimension"] [some _, some _] (by decide) rfl false
  rw [Codec.read?_write]
  · generalize unitPrice.encode ⟨.finite x, d⟩ = v at hfields ⊢
    unfold unitPrice
    dsimp only
    rw [hfields]
    simp only [required, Option.bind_some, double?_ofDouble, decode_dimension]
    rfl
  · apply isProper_ofMembers
    simp only [List.forall_mem_cons]
    exact ⟨isProper_ofDouble x, isProper_ofText _, nofun⟩

theorem nullable_ofText (s : String) :
    nullable Value.text? (some (.ofText s)) = some (some s) := by
  show (Value.text? (.ofText s)).map some = some (some s)
  rw [text?_ofText, Option.map_some]

theorem read?_write_entry (e : Entry) : entry.read? (entry.write e) = some e := by
  obtain ⟨quantity, unit, system⟩ := e
  -- an entry without a unit is written with a null
  have hunit : ∃ v, nullable Value.text? (some v) = some unit ∧ v.IsProper ∧
      entry.encode ⟨quantity, unit, system⟩ = .ofMembers
        [("qty", .ofDouble quantity), ("unit", v), ("system", entrySystem.encode system)] := by
    cases unit with
    | none => exact ⟨.null, rfl, by rw [Value.IsProper]; trivial, rfl⟩
    | some u => exact ⟨.ofText u, nullable_ofText u, isProper_ofText u, rfl⟩
  obtain ⟨v, hv, hproper, hencode⟩ := hunit
  have hfields : fields? ["qty", "unit", "system"] false (entry.encode ⟨quantity, unit, system⟩) =
      some [some (.ofDouble quantity), some v, some (entrySystem.encode system)] := by
    rw [hencode]
    exact fields?_given ["qty", "unit", "system"] [some _, some _, some _] (by decide) rfl false
  rw [Codec.read?_write]
  · generalize entry.encode ⟨quantity, unit, system⟩ = v at hfields ⊢
    unfold entry
    dsimp only
    rw [hfields]
    simp only [required, Option.bind_some, double?_ofDouble, decode_entrySystem, hv]
    rfl
  · rw [hencode]
    apply isProper_ofMembers
    simp only [List.forall_mem_cons]
    exact ⟨isProper_ofDouble quantity, hproper, isProper_ofText _, nofun⟩

theorem read?_write_errorReport (r : ErrorReport) :
    errorReport.read? (errorReport.write r) = some r := by
  obtain ⟨code, message, suggestion, level⟩ := r
  -- a report without a suggestion is written without the member
  have hencode : errorReport.encode ⟨code, message, suggestion, level⟩ = .ofMembers
      (given ["code", "message", "suggestion", "severity"]
        [some (.ofText code), some (.ofText message), suggestion.map .ofText,
          some (severity.encode level)]) := by
    cases suggestion <;> rfl
  have hsuggestion : nullable Value.text? (suggestion.map .ofText) = some suggestion := by
    cases suggestion with
    | none => rfl
    | some advice => exact nullable_ofText advice
  have hfields : fields? ["code", "message", "suggestion", "severity"] false
      (errorReport.encode ⟨code, message, suggestion, level⟩) =
      some [some (.ofText code), some (.ofText message), suggestion.map .ofText,
        some (severity.encode level)] := by
    rw [hencode]
    exact fields?_given _ _ (by decide) rfl false
  rw [Codec.read?_write]
  · generalize errorReport.encode ⟨code, message, suggestion, level⟩ = v at hfields ⊢
    unfold errorReport
    dsimp only
    rw [hfields]
    simp only [required, Option.bind_some, text?_ofText, hsuggestion, decode_severity]
    rfl
  · rw [hencode]
    cases suggestion with
    | none =>
      show (Value.ofMembers [("code", _), ("message", _), ("severity", _)]).IsProper
      apply isProper_ofMembers
      simp only [List.forall_mem_cons]
      exact ⟨isProper_ofText _, isProper_ofText _, isProper_ofText _, nofun⟩
    | some advice =>
      show (Value.ofMembers [("code", _), ("message", _), ("suggestion", _), ("severity", _)]).IsProper
      apply isProper_ofMembers
      simp only [List.forall_mem_cons]
      exact ⟨isProper_ofText _, isProper_ofText _, isProper_ofText _, isProper_ofText _, nofun⟩

theorem withDefault_some {α : Type} (decode : Value → Option α) (unset : α) (v : Value) :
    withDefault decode unset (some v) = decode v := rfl

theorem read?_write_displayOptions (o : DisplayOptions) :
    displayOptions.read? (displayOptions.write o) = some o := by
  have hfields : fields? ["system", "quantity_decimals", "money_decimals"] true
      (displayOptions.encode o) =
      some [some (unitSystem.encode o.system), some (.ofInt o.quantityDecimals.toNat),
        some (.ofInt o.moneyDecimals.toNat)] :=
    fields?_given ["system", "quantity_decimals", "money_decimals"] [some _, some _, some _]
      (by decide) rfl true
  rw [Codec.read?_write]
  · generalize displayOptions.encode o = v at hfields ⊢
    unfold displayOptions
    dsimp only
    rw [hfields]
    dsimp only
    rw [withDefault_some, withDefault_some, withDefault_some, decode_unitSystem, uint32?_ofInt,
      uint32?_ofInt]
    rfl
  · apply isProper_ofMembers
    simp only [List.forall_mem_cons]
    exact ⟨isProper_ofText _, isProper_ofInt _, isProper_ofInt _, nofun⟩

/-- A unit comes back with the factor that is read for its own. -/
theorem read?_write_measureUnit {u : MeasureUnit} {x : Decimal}
    (hx : decimal.decode (decimal.encode u.factor) = some x) :
    measureUnit.read? (measureUnit.write u) = some { u with factor := x } := by
  have hfields : fields? ["symbol", "name", "dimension", "system", "to_base_factor"] false
      (measureUnit.encode u) =
      some [some (.ofText u.symbol), some (.ofText u.name), some (dimension.encode u.dimension),
        some (unitSystem.encode u.system), some (decimal.encode u.factor)] :=
    fields?_given ["symbol", "name", "dimension", "system", "to_base_factor"]
      [some _, some _, some _, some _, some _] (by decide) rfl false
  rw [Codec.read?_write]
  · generalize measureUnit.encode u = v at hfields ⊢
    unfold measureUnit
    dsimp only
    rw [hfields]
    simp only [required, Option.bind_some, text?_ofText, decode_dimension, decode_unitSystem, hx]
    rfl
  · apply isProper_ofMembers
    simp only [List.forall_mem_cons]
    exact ⟨isProper_ofText _, isProper_ofText _, isProper_ofText _, isProper_ofText _,
      isProper_ofText _, nofun⟩

/-- Every record comes back from its text as it was: a stored quantity whatever its integer, a price
and an entry whatever their double, negative zero included, a report and an entry whatever the
characters of their texts and whether or not the optional one is there, and options whatever their
numbers of decimals. -/
theorem read?_write_records :
    (∀ q : StoredQuantity, storedQuantity.read? (storedQuantity.write q) = some q) ∧
      (∀ (x : Finite) (d : Dimension),
        unitPrice.read? (unitPrice.write ⟨.finite x, d⟩) = some ⟨.finite x, d⟩) ∧
      (∀ e : Entry, entry.read? (entry.write e) = some e) ∧
      (∀ r : ErrorReport, errorReport.read? (errorReport.write r) = some r) ∧
      ∀ o : DisplayOptions, displayOptions.read? (displayOptions.write o) = some o :=
  ⟨read?_write_storedQuantity, read?_write_unitPrice, read?_write_entry, read?_write_errorReport,
    read?_write_displayOptions⟩

end UnitLedger.Json
