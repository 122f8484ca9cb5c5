import UnitLedger.Text.Blank
import UnitLedger.Text.CaseMap
set_option autoImplicit false

/-! # Unit symbols as they are typed

A symbol is looked up under its key: without blanks around it, in lower case, with raised digits as
plain ones, without carets, and with an underscore for every hyphen and space.
-/

namespace UnitLedger.Symbol

open Text

/-- What a character contributes to a key. -/
def foldChar (c : Char) : List Char :=
  if c = '²' then ['2']
  else if c = '³' then ['3']
  else if c = '^' then []
  else if c = '-' ∨ c = ' ' then ['_']
  else lowerCase.char c

/-- The key of a text without blanks around it. -/
def fold (cs : List Char) : List Char := cs.flatMap foldChar

@[simp] theorem fold_nil : fold [] = [] := rfl

@[simp] theorem fold_cons (c : Char) (cs : List Char) :
    fold (c :: cs) = foldChar c ++ fold cs := rfl

theorem fold_append (cs ds : List Char) : fold (cs ++ ds) = fold cs ++ fold ds :=
  List.flatMap_append

/-- The key of a symbol. -/
def key (symbol : String) : List Char := fold (trim symbol.toList)

/-- `key` as a string. -/
def normalize (symbol : String) : String := String.ofList (key symbol)

@[simp] theorem toList_normalize (symbol : String) : (normalize symbol).toList = key symbol :=
  String.toList_ofList

end UnitLedger.Symbol
