import UnitLedger.Decimal.Printer
import UnitLedger.Decimal.Reader
import UnitLedger.Decimal.Rounding
import UnitLedger.Entry
import UnitLedger.Error.Report
import UnitLedger.Json.Double
import UnitLedger.Json.Printer
import UnitLedger.Json.Reader
import UnitLedger.Options
import UnitLedger.Price
set_option autoImplicit false

/-! # Records in JSON

How the records of the library are handed over.  A record is an object with its fields by name, or
an array with its fields in order; a choice is its name as a string, or an object with the name as
its only member and null as the value.  Members of other names are skipped, and no field may be
given twice.
-/

namespace UnitLedger.Json

/-- A way to write values of a type and to read them. -/
structure Codec (α : Type) where
  encode : α → Value
  decode : Value → Option α

namespace Codec

variable {α : Type}

/-- The text of a value. -/
def write (f : Codec α) (a : α) : String := (f.encode a).text

/-- The value that a text gives. -/
def read? (f : Codec α) (text : String) : Option α := (Json.read? text.toList).bind f.decode

end Codec

/-! ## Fields -/

/-- Puts a value into the field of a name; the field must be empty.  Other names change nothing. -/
def setField (names : List String) (values : List (Option Value)) (name : List Char) (v : Value) :
    Option (List (Option Value)) :=
  match names.findIdx? (fun n => n.toList = name) with
  | none => some values
  | some i =>
    match values[i]? with
    | some none => some (values.set i (some v))
    | _ => none

/-- The fields of an object, which have been set so far to `values`. -/
def collect (names : List String) (values : List (Option Value)) :
    List (Literal × Value) → Option (List (Option Value))
  | [] => some values
  | (none, _) :: _ => none
  | (some name, v) :: rest => do
    let values ← setField names values name v
    collect names values rest

/-- The fields of a record in the order of `names`.  In an array fields may be missing at the end
only if `mayStop` holds. -/
def fields? (names : List String) (mayStop : Bool) : Value → Option (List (Option Value))
  | .object members => collect names (names.map fun _ => none) members
  | .array elements =>
    let missing := names.length - elements.length
    if elements.length ≤ names.length ∧ (mayStop ∨ missing = 0) then
      some (elements.map some ++ List.replicate missing none)
    else none
  | _ => none

/-- A field that has to be there. -/
def required {α : Type} (decode : Value → Option α) (field : Option Value) : Option α :=
  field.bind decode

/-- A field with a value that holds without it. -/
def withDefault {α : Type} (decode : Value → Option α) (unset : α) : Option Value → Option α
  | none => some unset
  | some v => decode v

/-- A field that may be missing or null. -/
def nullable {α : Type} (decode : Value → Option α) : Option Value → Option (Option α)
  | none | some .null => some none
  | some v => (decode v).map some

/-! ## Simple values -/

/-- The text that a value gives. -/
def Value.text? : Value → Option String
  | .string (some cs) => some (String.ofList cs)
  | _ => none

/-- The integer of a literal without point and exponent.  A zero with a minus is none. -/
def Value.integer? : Value → Option Int
  | .number n =>
    let magnitude := Nat.ofDigitChars 10 n.whole 0
    if n.isPlain ∧ ¬ (n.negative ∧ magnitude = 0) then
      some (if n.negative then -(magnitude : Int) else magnitude)
    else none
  | _ => none

/-- A signed 64-bit word. -/
def Value.int64? (v : Value) : Option Int64 := v.integer?.bind storable?

/-- An unsigned 32-bit word. -/
def Value.uint32? (v : Value) : Option UInt32 :=
  v.integer?.bind fun n => if 0 ≤ n ∧ n < 2 ^ 32 then some (UInt32.ofNat n.toNat) else none

/-- A choice among values with names. -/
def choice {α : Type} (all : List α) (name : α → String) : Codec α where
  encode a := .ofText (name a)
  decode v :=
    let named (cs : List Char) := all.find? fun a => (name a).toList = cs
    match v with
    | .string (some cs) => named cs
    | .object [(some cs, .null)] => named cs
    | _ => none

/-! ## The records -/

def dimension : Codec Dimension := choice Dimension.all Dimension.name

def unitSystem : Codec UnitSystem := choice UnitSystem.all UnitSystem.name

def entrySystem : Codec EntrySystem := choice EntrySystem.all EntrySystem.name

def severity : Codec Severity := choice Severity.all Severity.name

/-- A decimal is its plain text as a string. -/
def decimal : Codec Decimal where
  encode x := .ofText x.plainText
  decode v := v.text?.bind fun s => (Decimal.ofText s).toOption

def storedQuantity : Codec StoredQuantity where
  encode q :=
    .ofMembers
      [("base_value", .ofInt q.baseValue.toInt), ("dimension", dimension.encode q.dimension)]
  decode v :=
    match fields? ["base_value", "dimension"] false v with
    | some [b, d] => do
      let b ← required Value.int64? b
      let d ← required dimension.decode d
      some ⟨b, d⟩
    | _ => none

/-- A price that is not finite is written as null. -/
def unitPrice : Codec UnitPrice where
  encode p :=
    let perBase := match p.perBase with
      | .finite x => Value.ofDouble x
      | _ => .null
    .ofMembers [("price_per_base", perBase), ("dimension", dimension.encode p.dimension)]
  decode v :=
    match fields? ["price_per_base", "dimension"] false v with
    | some [p, d] => do
      let p ← required Value.double? p
      let d ← required dimension.decode d
      some ⟨.finite p, d⟩
    | _ => none

/-- An entry without a unit has null for it. -/
def entry : Codec Entry where
  encode e :=
    let unit := match e.unit with
      | none => .null
      | some u => Value.ofText u
    .ofMembers
      [("qty", .ofDouble e.quantity), ("unit", unit), ("system", entrySystem.encode e.system)]
  decode v :=
    match fields? ["qty", "unit", "system"] false v with
    | some [q, u, s] => do
      let q ← required Value.double? q
      let u ← nullable Value.text? u
      let s ← required entrySystem.decode s
      some ⟨q, u, s⟩
    | _ => none

def measureUnit : Codec MeasureUnit where
  encode u :=
    .ofMembers
      [("symbol", .ofText u.symbol), ("name", .ofText u.name),
        ("dimension", dimension.encode u.dimension), ("system", unitSystem.encode u.system),
        ("to_base_factor", decimal.encode u.factor)]
  decode v :=
    match fields? ["symbol", "name", "dimension", "system", "to_base_factor"] false v with
    | some [y, n, d, s, f] => do
      let y ← required Value.text? y
      let n ← required Value.text? n
      let d ← required dimension.decode d
      let s ← required unitSystem.decode s
      let f ← required decimal.decode f
      some ⟨y, n, d, s, f⟩
    | _ => none

/-- A report without a suggestion is written without that member. -/
def errorReport : Codec ErrorReport where
  encode r :=
    let suggestion := match r.suggestion with
      | none => []
      | some s => [("suggestion", Value.ofText s)]
    .ofMembers
      ([("code", Value.ofText r.code), ("message", .ofText r.message)] ++ suggestion ++
        [("severity", severity.encode r.severity)])
  decode v :=
    match fields? ["code", "message", "suggestion", "severity"] false v with
    | some [c, m, a, s] => do
      let c ← required Value.text? c
      let m ← required Value.text? m
      let a ← nullable Value.text? a
      let s ← required severity.decode s
      some ⟨c, m, a, s⟩
    | _ => none

/-- Options that are not given are the standard ones. -/
def displayOptions : Codec DisplayOptions where
  encode o :=
    .ofMembers
      [("system", unitSystem.encode o.system),
        ("quantity_decimals", .ofInt o.quantityDecimals.toNat),
        ("money_decimals", .ofInt o.moneyDecimals.toNat)]
  decode v :=
    match fields? ["system", "quantity_decimals", "money_decimals"] true v with
    | some [s, q, m] => do
      let s ← withDefault unitSystem.decode DisplayOptions.standard.system s
      let q ← withDefault Value.uint32? DisplayOptions.standard.quantityDecimals q
      let m ← withDefault Value.uint32? DisplayOptions.standard.moneyDecimals m
      some ⟨s, q, m⟩
    | _ => none

/-- The units to choose from, by system. -/
def unitGroups (g : UnitGroups) : Value :=
  .ofMembers
    [("metric", .array (g.metric.map measureUnit.encode)),
      ("imperial", .array (g.imperial.map measureUnit.encode))]

end UnitLedger.Json
