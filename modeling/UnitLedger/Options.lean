import UnitLedger.Dimension
set_option autoImplicit false

/-! # Display options

Which system is offered first and with how many decimals quantities and money are written.  Options
are read from named settings; more decimals than `maxDecimals` are refused.
-/

namespace UnitLedger

/-- How quantities and money are written. -/
structure DisplayOptions where
  system : UnitSystem
  quantityDecimals : UInt32
  moneyDecimals : UInt32
  deriving DecidableEq, Repr

namespace DisplayOptions

/-- Metric units and two decimals. -/
def standard : DisplayOptions := ⟨.metric, 2, 2⟩

/-- The largest number of decimals that can be set. -/
def maxDecimals : UInt32 := 12

/-- Both numbers of decimals are allowed. -/
def IsValid (o : DisplayOptions) : Prop :=
  o.quantityDecimals ≤ maxDecimals ∧ o.moneyDecimals ≤ maxDecimals

instance (o : DisplayOptions) : Decidable o.IsValid :=
  inferInstanceAs (Decidable (_ ∧ _))

/-- The error for too many decimals. -/
def tooMany (setting : String) (decimals : UInt32) : UnitError :=
  .configuration (setting ++ " must be at most " ++ toString maxDecimals.toNat ++ ", got " ++
    toString decimals.toNat)

/-- Refuses options with too many decimals, of quantities before those of money. -/
def validate (o : DisplayOptions) : Except UnitError DisplayOptions :=
  if maxDecimals < o.quantityDecimals then .error (tooMany "quantity_decimals" o.quantityDecimals)
  else if maxDecimals < o.moneyDecimals then .error (tooMany "money_decimals" o.moneyDecimals)
  else .ok o

theorem validate_eq_ok_iff {o p : DisplayOptions} : o.validate = .ok p ↔ p = o ∧ o.IsValid := by
  unfold validate IsValid
  by_cases hq : maxDecimals < o.quantityDecimals
  · simp only [hq, if_true, reduceCtorEq, false_iff]
    exact fun h => UInt32.not_le.2 hq h.2.1
  · by_cases hm : maxDecimals < o.moneyDecimals
    · simp only [hq, hm, if_true, if_false, reduceCtorEq, false_iff]
      exact fun h => UInt32.not_le.2 hm h.2.2
    · simp only [hq, hm, if_false, Except.ok.injEq]
      exact ⟨fun h => ⟨h.symm, UInt32.not_lt.1 hq, UInt32.not_lt.1 hm⟩, fun h => h.1.symm⟩

/-! ## Settings -/

/-- Name of the setting for the system. -/
def systemSetting : String := "TALLY_UNIT_SYSTEM"

/-- Name of the setting for the decimals of quantities. -/
def quantitySetting : String := "TALLY_QUANTITY_DECIMALS"

/-- Name of the setting for the decimals of money. -/
def moneySetting : String := "TALLY_MONEY_DECIMALS"

/-- Digits after an optional plus, as a 32-bit word. -/
def readWord? (cs : List Char) : Option UInt32 :=
  let digits := match cs with
    | '+' :: rest => rest
    | rest => rest
  let n := Nat.ofDigitChars 10 digits 0
  if digits ≠ [] ∧ digits.all Char.isDigit ∧ n < 2 ^ 32 then some (UInt32.ofNat n) else none

/-- The number of decimals that a setting asks for, blanks around it aside. -/
def readDecimals (setting value : String) : Except UnitError UInt32 :=
  match readWord? (Text.trim value.toList) with
  | some n => .ok n
  | none =>
    .error (.configuration (setting ++ " must be a non-negative integer, got '" ++ value ++ "'"))

/-- The result of reading a setting, or what holds without it. -/
def orElse {α : Type} (value : Option String) (unset : α) (read : String → Except UnitError α) :
    Except UnitError α :=
  match value with
  | none => .ok unset
  | some v => read v

/-- The options of named settings.  What is not set stays as in the standard options. -/
def ofSettings (lookup : String → Option String) : Except UnitError DisplayOptions := do
  let system ← orElse (lookup systemSetting) standard.system UnitSystem.ofText
  let quantity ← orElse (lookup quantitySetting) standard.quantityDecimals
    (readDecimals quantitySetting)
  let money ← orElse (lookup moneySetting) standard.moneyDecimals (readDecimals moneySetting)
  validate ⟨system, quantity, money⟩

/-! ## Default units -/

/-- Symbol of the unit offered first in a field of the dimension. -/
def defaultSymbol (o : DisplayOptions) (d : Dimension) : String :=
  match o.system, d with
  | .imperial, .length => "in"
  | .imperial, .area => "in2"
  | .imperial, .volume => "in3"
  | .imperial, .weight => "lb"
  | _, d => d.baseSymbol

end DisplayOptions

end UnitLedger
