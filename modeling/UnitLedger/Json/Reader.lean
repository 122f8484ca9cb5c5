import UnitLedger.Json.Value
set_option autoImplicit false

/-! # Reading JSON

A strict reader: one value, with blanks allowed between tokens and nothing else behind it.  Each
function takes its part off the front of the text and returns the rest.
-/

namespace UnitLedger.Json

/-- A blank between tokens. -/
def isBlank (c : Char) : Bool := c == ' ' || c == '\t' || c == '\n' || c == '\r'

/-- The text from the next token on. -/
def skip (cs : List Char) : List Char := cs.dropWhile isBlank

/-! ## Strings -/

/-- What a part of a string literal stands for: a character, or half of a surrogate pair. -/
inductive Piece where
  | char (c : Char)
  | half (unit : Nat)
  deriving DecidableEq, Repr

/-- The value of a digit of base sixteen. -/
def hexValue? (c : Char) : Option Nat :=
  if c.isDigit then some (c.toNat - '0'.toNat)
  else if 'a' ≤ c ∧ c ≤ 'f' then some (c.toNat - 'a'.toNat + 10)
  else if 'A' ≤ c ∧ c ≤ 'F' then some (c.toNat - 'A'.toNat + 10)
  else none

/-- The piece of an escape with four digits. -/
def hexPiece? (a b c d : Char) : Option Piece := do
  let n := ((← hexValue? a) * 16 + (← hexValue? b)) * 256 + (← hexValue? c) * 16 + (← hexValue? d)
  some (if 0xD800 ≤ n ∧ n < 0xE000 then .half n else .char (Char.ofNat n))

/-- The character of an escape with one letter. -/
def shortEscape? (c : Char) : Option Char :=
  if c = '"' ∨ c = '\\' ∨ c = '/' then some c
  else if c = 'b' then some (Char.ofNat 8)
  else if c = 'f' then some (Char.ofNat 12)
  else if c = 'n' then some '\n'
  else if c = 'r' then some '\r'
  else if c = 't' then some '\t'
  else none

/-- The pieces of a string up to its closing mark, and the text behind it. -/
def takePieces? : List Char → Option (List Piece × List Char)
  | [] => none
  | '"' :: rest => some ([], rest)
  | '\\' :: 'u' :: a :: b :: c :: d :: rest => do
    let piece ← hexPiece? a b c d
    let (pieces, rest) ← takePieces? rest
    some (piece :: pieces, rest)
  | '\\' :: c :: rest => do
    let e ← shortEscape? c
    let (pieces, rest) ← takePieces? rest
    some (.char e :: pieces, rest)
  | c :: rest =>
    if c.toNat < 32 ∨ c = '\\' then none
    else do
      let (pieces, rest) ← takePieces? rest
      some (.char c :: pieces, rest)

/-- The character of a surrogate pair. -/
def pair? (high low : Nat) : Option Char :=
  if high < 0xDC00 ∧ 0xDC00 ≤ low then
    some (Char.ofNat (0x10000 + (high - 0xD800) * 0x400 + (low - 0xDC00)))
  else none

/-- The text of the pieces, if no half of a pair stands alone. -/
def joinPieces : List Piece → Literal
  | [] => some []
  | .char c :: rest => (joinPieces rest).map (c :: ·)
  | .half high :: .half low :: rest => do
    let c ← pair? high low
    (joinPieces rest).map (c :: ·)
  | .half _ :: _ => none

/-- A string after its opening mark. -/
def takeString? (cs : List Char) : Option (Literal × List Char) :=
  (takePieces? cs).map fun (pieces, rest) => (joinPieces pieces, rest)

/-! ## Numbers -/

/-- Digits without a superfluous zero in front. -/
def takeWhole? (cs : List Char) : Option (List Char × List Char) :=
  match cs.takeWhile Char.isDigit, cs.dropWhile Char.isDigit with
  | ['0'], rest => some (['0'], rest)
  | '0' :: _, _ => none
  | [], _ => none
  | digits, rest => some (digits, rest)

/-- Digits, at least one. -/
def takeDigits? (cs : List Char) : Option (List Char × List Char) :=
  match cs.takeWhile Char.isDigit with
  | [] => none
  | digits => some (digits, cs.dropWhile Char.isDigit)

/-- A point and digits, or nothing. -/
def takeFraction? : List Char → Option (List Char × List Char)
  | '.' :: rest => takeDigits? rest
  | rest => some ([], rest)

/-- The digits of an exponent after its sign. -/
def takeMagnitude? (negative : Bool) (cs : List Char) : Option (Option Int × List Char) :=
  (takeDigits? cs).map fun (digits, rest) =>
    let n : Int := Nat.ofDigitChars 10 digits 0
    (some (if negative then -n else n), rest)

/-- An exponent, or nothing. -/
def takeExponent? : List Char → Option (Option Int × List Char)
  | [] => some (none, [])
  | c :: rest =>
    if c = 'e' ∨ c = 'E' then
      match rest with
      | '-' :: digits => takeMagnitude? true digits
      | '+' :: digits => takeMagnitude? false digits
      | digits => takeMagnitude? false digits
    else some (none, c :: rest)

/-- A number after its sign. -/
def takeMagnitudeOf? (negative : Bool) (cs : List Char) : Option (Number × List Char) := do
  let (whole, rest) ← takeWhole? cs
  let (fraction, rest) ← takeFraction? rest
  let (exponent, rest) ← takeExponent? rest
  some (⟨negative, whole, fraction, exponent⟩, rest)

/-- A number. -/
def takeNumber? : List Char → Option (Number × List Char)
  | '-' :: rest => takeMagnitudeOf? true rest
  | rest => takeMagnitudeOf? false rest

/-! ## Values -/

mutual

/-- A value.  The first argument bounds the depth of the calls. -/
def takeValue? : Nat → List Char → Option (Value × List Char)
  | 0, _ => none
  | n + 1, cs =>
    match skip cs with
    | '"' :: rest => (takeString? rest).map fun (s, rest) => (.string s, rest)
    | '[' :: rest =>
      match skip rest with
      | ']' :: rest => some (.array [], rest)
      | rest => (takeElements? n rest).map fun (vs, rest) => (.array vs, rest)
    | '\x7b' :: rest =>
      match skip rest with
      | '\x7d' :: rest => some (.object [], rest)
      | rest => (takeMembers? n rest).map fun (ms, rest) => (.object ms, rest)
    | 'n' :: 'u' :: 'l' :: 'l' :: rest => some (.null, rest)
    | 't' :: 'r' :: 'u' :: 'e' :: rest => some (.bool true, rest)
    | 'f' :: 'a' :: 'l' :: 's' :: 'e' :: rest => some (.bool false, rest)
    | rest => (takeNumber? rest).map fun (x, rest) => (.number x, rest)

/-- The elements of an array up to its closing bracket, at least one. -/
def takeElements? : Nat → List Char → Option (List Value × List Char)
  | 0, _ => none
  | n + 1, cs => do
    let (v, rest) ← takeValue? n cs
    match skip rest with
    | ']' :: rest => some ([v], rest)
    | ',' :: rest =>
      let (vs, rest) ← takeElements? n rest
      some (v :: vs, rest)
    | _ => none

/-- The members of an object up to its closing brace, at least one. -/
def takeMembers? : Nat → List Char → Option (List (Literal × Value) × List Char)
  | 0, _ => none
  | n + 1, cs => do
    match skip cs with
    | '"' :: rest =>
      let (name, rest) ← takeString? rest
      match skip rest with
      | ':' :: rest =>
        let (v, rest) ← takeValue? n rest
        match skip rest with
        | '\x7d' :: rest => some ([(name, v)], rest)
        | ',' :: rest =>
          let (ms, rest) ← takeMembers? n rest
          some ((name, v) :: ms, rest)
        | _ => none
      | _ => none
    | _ => none

end

/-- The value of a whole text.  Of two nested calls at least one consumes a character, so twice the
length bounds the depth. -/
def read? (cs : List Char) : Option Value :=
  match takeValue? (2 * cs.length + 2) cs with
  | some (v, rest) => if skip rest = [] then some v else none
  | none => none

end UnitLedger.Json
