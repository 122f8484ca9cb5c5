import UnitLedger.Json.Value
set_option autoImplicit false

/-! # Writing JSON

Values are written without blanks.  In strings the quotation mark, the backslash and control
characters are escaped, and all other characters stand for themselves; an exponent always has a
sign.
-/

namespace UnitLedger.Json

/-- A digit of base sixteen, with small letters. -/
def hexDigit (n : Nat) : Char := Nat.digitChar (n % 16)

/-- The escape of a code point below 256. -/
def escapeCode (n : Nat) : List Char := ['\\', 'u', '0', '0', hexDigit (n / 16), hexDigit n]

/-- A character inside a string. -/
def escapeChar (c : Char) : List Char :=
  if c = '"' then ['\\', '"']
  else if c = '\\' then ['\\', '\\']
  else if c = '\n' then ['\\', 'n']
  else if c = '\t' then ['\\', 't']
  else if c = '\r' then ['\\', 'r']
  else if c = Char.ofNat 8 then ['\\', 'b']
  else if c = Char.ofNat 12 then ['\\', 'f']
  else if c.toNat < 32 then escapeCode c.toNat
  else [c]

/-- A string literal.  One that names no text is written as half a surrogate pair. -/
def printLiteral : Literal → List Char
  | some cs => '"' :: (cs.flatMap escapeChar ++ ['"'])
  | none => "\"\\ud800\"".toList

/-- A number literal. -/
def Number.print (n : Number) : List Char :=
  let sign := if n.negative then ['-'] else []
  let fraction := if n.fraction = [] then [] else '.' :: n.fraction
  let exponent :=
    match n.exponent with
    | none => []
    | some e => 'e' :: (if e < 0 then '-' else '+') :: Nat.toDigits 10 e.natAbs
  sign ++ n.whole ++ fraction ++ exponent

/-- The parts with commas between them. -/
def commaSeparated : List (List Char) → List Char
  | [] => []
  | [part] => part
  | part :: rest => part ++ ',' :: commaSeparated rest

mutual

/-- A value. -/
def Value.print : Value → List Char
  | .null => "null".toList
  | .bool b => (if b then "true" else "false").toList
  | .number n => n.print
  | .string s => printLiteral s
  | .array elements => '[' :: (commaSeparated (printElements elements) ++ [']'])
  | .object members => '\x7b' :: (commaSeparated (printMembers members) ++ ['\x7d'])

/-- The elements of an array. -/
def printElements : List Value → List (List Char)
  | [] => []
  | v :: rest => v.print :: printElements rest

/-- The members of an object. -/
def printMembers : List (Literal × Value) → List (List Char)
  | [] => []
  | (name, v) :: rest => (printLiteral name ++ ':' :: v.print) :: printMembers rest

end

/-- `Value.print` as a string. -/
def Value.text (v : Value) : String := String.ofList v.print

end UnitLedger.Json
