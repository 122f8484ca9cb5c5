import UnitLedger.Json.Printer
import UnitLedger.Json.Reader
import UnitLedger.Proofs.Numeral
set_option autoImplicit false

/-! # Written JSON is read

The strict reader takes off the front of a text what the printer wrote there, whatever the text goes
on with (`takeValue?_print`), so a value is read from the text that is written for it
(`read?_print`).  The one condition is that number literals are literals of the format
(`Number.IsProper`); strings may hold any character.  The text of an object holds the texts of its
members (`print_infix_object`).
-/

namespace UnitLedger.Json

open Numeral

/-! ## Strings -/

/-- A character is written as a letter behind a backslash, by its code, or as itself. -/
theorem escapeChar_cases (c : Char) :
    (∃ letter, letter ≠ 'u' ∧ shortEscape? letter = some c ∧ escapeChar c = ['\\', letter]) ∨
      (c.toNat < 32 ∧ escapeChar c = escapeCode c.toNat) ∨
      (c ≠ '"' ∧ c ≠ '\\' ∧ ¬ c.toNat < 32 ∧ escapeChar c = [c]) := by
  have hshort : ∀ letter ch, letter ≠ 'u' ∧ shortEscape? letter = some ch ∧
      escapeChar ch = ['\\', letter] → c = ch → ∃ letter, letter ≠ 'u' ∧
        shortEscape? letter = some c ∧ escapeChar c = ['\\', letter] := by
    rintro letter ch h rfl
    exact ⟨letter, h⟩
  by_cases hquote : c = '"'
  · exact Or.inl (hshort '"' '"' (by decide) hquote)
  by_cases hbackslash : c = '\\'
  · exact Or.inl (hshort '\\' '\\' (by decide) hbackslash)
  by_cases hline : c = '\n'
  · exact Or.inl (hshort 'n' '\n' (by decide) hline)
  by_cases htab : c = '\t'
  · exact Or.inl (hshort 't' '\t' (by decide) htab)
  by_cases hreturn : c = '\r'
  · exact Or.inl (hshort 'r' '\r' (by decide) hreturn)
  by_cases hback : c = Char.ofNat 8
  · exact Or.inl (hshort 'b' (Char.ofNat 8) (by decide) hback)
  by_cases hfeed : c = Char.ofNat 12
  · exact Or.inl (hshort 'f' (Char.ofNat 12) (by decide) hfeed)
  right
  unfold escapeChar
  rw [if_neg hquote, if_neg hbackslash, if_neg hline, if_neg htab, if_neg hreturn, if_neg hback,
    if_neg hfeed]
  by_cases hcontrol : c.toNat < 32
  · exact Or.inl ⟨hcontrol, if_pos hcontrol⟩
  · exact Or.inr ⟨hquote, hbackslash, hcontrol, if_neg hcontrol⟩

theorem hexPiece?_escapeCode : ∀ n < 32,
    hexPiece? '0' '0' (hexDigit (n / 16)) (hexDigit n) = some (.char (Char.ofNat n)) := by
  decide

theorem takePieces?_escapeChar (c : Char) (rest : List Char) :
    takePieces? (escapeChar c ++ rest) =
      (takePieces? rest).map fun taken => (.char c :: taken.1, taken.2) := by
  rcases escapeChar_cases c with
    ⟨letter, hletter, hshort, heq⟩ | ⟨hcontrol, heq⟩ | ⟨hquote, hbackslash, hcontrol, heq⟩
  · show takePieces? (escapeChar c ++ rest) = _
    rw [heq, List.cons_append, List.singleton_append, takePieces?, hshort]
    · cases takePieces? rest <;> rfl
    · intro _ _ _ _ _ hu
      exact absurd hu hletter
  · have hpiece := hexPiece?_escapeCode c.toNat hcontrol
    rw [Char.ofNat_toNat] at hpiece
    rw [heq]
    show takePieces? ('\\' :: 'u' :: '0' :: '0' :: _ :: _ :: rest) = _
    rw [takePieces?, hpiece]
    cases takePieces? rest <;> rfl
  · have hplain : ¬ (c.toNat < 32 ∨ c = '\\') := fun h => h.elim hcontrol hbackslash
    rw [heq, List.singleton_append, takePieces?, if_neg hplain]
    · cases takePieces? rest <;> rfl
    · exact hquote
    · intro _ _ _ _ _ h
      exact absurd h hbackslash
    · intro _ _ h
      exact absurd h hbackslash

theorem takePieces?_escaped (cs rest : List Char) :
    takePieces? (cs.flatMap escapeChar ++ '"' :: rest) = some (cs.map .char, rest) := by
  induction cs with
  | nil => rfl
  | cons c cs ih =>
    rw [List.flatMap_cons, List.append_assoc, takePieces?_escapeChar, ih]
    rfl

theorem joinPieces_map_char (cs : List Char) : joinPieces (cs.map .char) = some cs := by
  induction cs with
  | nil => rfl
  | cons c cs ih =>
    rw [List.map_cons, joinPieces, ih]
    rfl

/-- A string literal without its opening mark. -/
theorem takeString?_printLiteral (s : Literal) (rest : List Char) :
    ∃ tail, printLiteral s = '"' :: tail ∧ takeString? (tail ++ rest) = some (s, rest) := by
  cases s with
  | none => exact ⟨_, rfl, rfl⟩
  | some cs =>
    refine ⟨_, rfl, ?_⟩
    rw [List.append_assoc, List.singleton_append, takeString?, takePieces?_escaped, Option.map_some]
    dsimp only
    rw [joinPieces_map_char]

/-! ## Numbers -/

/-- The literal is one of the format: digits without a superfluous zero in front, and digits behind
the point. -/
structure Number.IsProper (n : Number) : Prop where
  whole_ne_nil : n.whole ≠ []
  whole_digits : ∀ c ∈ n.whole, c.isDigit = true
  no_leading_zero : n.whole.head? = some '0' → n.whole = ['0']
  fraction_digits : ∀ c ∈ n.fraction, c.isDigit = true

/-- A text that goes on from a number literal without being part of it. -/
def EndsNumber (rest : List Char) : Prop :=
  ∀ c ∈ rest.head?, c.isDigit = false ∧ c ≠ '.' ∧ c ≠ 'e' ∧ c ≠ 'E'

theorem takeWhole?_append {whole rest : List Char} (hne : whole ≠ [])
    (hdigits : ∀ c ∈ whole, c.isDigit = true) (hzero : whole.head? = some '0' → whole = ['0'])
    (hrest : ∀ c ∈ rest.head?, c.isDigit = false) :
    takeWhole? (whole ++ rest) = some (whole, rest) := by
  obtain ⟨htake, hdrop⟩ := takeWhile_isDigit_append hdigits hrest
  unfold takeWhole?
  rw [htake, hdrop]
  split
  · rfl
  · next hmore =>
    have hwhole := hzero rfl
    cases hwhole
    exact (hmore rfl).elim
  · exact absurd rfl hne
  · rfl

theorem takeDigits?_append {digits rest : List Char} (hne : digits ≠ [])
    (hdigits : ∀ c ∈ digits, c.isDigit = true) (hrest : ∀ c ∈ rest.head?, c.isDigit = false) :
    takeDigits? (digits ++ rest) = some (digits, rest) := by
  obtain ⟨htake, hdrop⟩ := takeWhile_isDigit_append hdigits hrest
  unfold takeDigits?
  rw [htake, hdrop]
  split
  · exact absurd rfl hne
  · rfl

namespace Number

/-- The point and the digits behind it. -/
def fractionText (n : Number) : List Char := if n.fraction = [] then [] else '.' :: n.fraction

/-- An exponent with its letter and its sign. -/
def exponentText : Option Int → List Char
  | none => []
  | some e => 'e' :: (if e < 0 then '-' else '+') :: Nat.toDigits 10 e.natAbs

/-- The text without the sign. -/
def magnitudeText (n : Number) : List Char :=
  n.whole ++ (n.fractionText ++ exponentText n.exponent)

theorem print_eq (n : Number) :
    n.print = (if n.negative then ['-'] else []) ++ n.magnitudeText := by
  unfold print magnitudeText fractionText
  cases n.exponent with
  | none => simp only [exponentText, List.append_assoc]
  | some e => simp only [exponentText, List.append_assoc]

variable {n : Number} {rest : List Char}

theorem takeExponent?_exponentText (exponent : Option Int) (hrest : EndsNumber rest) :
    takeExponent? (exponentText exponent ++ rest) = some (exponent, rest) := by
  cases exponent with
  | none =>
    cases rest with
    | nil => rfl
    | cons c cs =>
      obtain ⟨-, -, hsmall, hlarge⟩ := hrest c rfl
      exact if_neg fun h => h.elim hsmall hlarge
  | some e =>
    have hdigits : takeDigits? (Nat.toDigits 10 e.natAbs ++ rest) =
        some (Nat.toDigits 10 e.natAbs, rest) :=
      takeDigits?_append Nat.toDigits_ne_nil
        (fun c hc => isDigit_of_mem_toDigits hc)
        fun c hc => (hrest c hc).1
    have hmagnitude : ∀ negative, takeMagnitude? negative (Nat.toDigits 10 e.natAbs ++ rest) =
        some (some (if negative then -(e.natAbs : Int) else e.natAbs), rest) := by
      intro negative
      rw [takeMagnitude?, hdigits, Option.map_some]
      dsimp only
      rw [Nat.ofDigitChars_ten_toDigits]
    rw [exponentText]
    by_cases he : e < 0
    · have hvalue : -(e.natAbs : Int) = e := by omega
      rw [if_pos he]
      show takeMagnitude? true (Nat.toDigits 10 e.natAbs ++ rest) = _
      rw [hmagnitude, if_pos rfl, hvalue]
    · have hvalue : (e.natAbs : Int) = e := by omega
      rw [if_neg he]
      show takeMagnitude? false (Nat.toDigits 10 e.natAbs ++ rest) = _
      rw [hmagnitude, if_neg Bool.false_ne_true, hvalue]

/-- An exponent does not go on with a digit or a point. -/
theorem head?_exponentText (exponent : Option Int) (hrest : EndsNumber rest) :
    ∀ c ∈ (exponentText exponent ++ rest).head?, c.isDigit = false ∧ c ≠ '.' := by
  intro c hc
  cases exponent with
  | none =>
    obtain ⟨hdigit, hpoint, -⟩ := hrest c hc
    exact ⟨hdigit, hpoint⟩
  | some e =>
    cases hc
    decide

theorem takeFraction?_fractionText (h : n.IsProper) {rest : List Char}
    (hrest : ∀ c ∈ rest.head?, c.isDigit = false ∧ c ≠ '.') :
    takeFraction? (n.fractionText ++ rest) = some (n.fraction, rest) := by
  unfold fractionText
  by_cases hnil : n.fraction = []
  · rw [if_pos hnil, hnil, List.nil_append]
    unfold takeFraction?
    split
    · exact absurd rfl (hrest '.' rfl).2
    · rfl
  · rw [if_neg hnil]
    exact takeDigits?_append hnil h.fraction_digits fun c hc => (hrest c hc).1

theorem head?_fractionText {rest : List Char} (hrest : ∀ c ∈ rest.head?, c.isDigit = false) :
    ∀ c ∈ (n.fractionText ++ rest).head?, c.isDigit = false := by
  intro c hc
  unfold fractionText at hc
  split at hc
  · exact hrest c hc
  · cases hc
    rfl

theorem takeMagnitudeOf?_text (h : n.IsProper) (hrest : EndsNumber rest) :
    takeMagnitudeOf? n.negative (n.magnitudeText ++ rest) = some (n, rest) := by
  have hexponent := head?_exponentText n.exponent hrest
  have hwhole := takeWhole?_append h.whole_ne_nil h.whole_digits h.no_leading_zero
    (head?_fractionText (n := n) fun c hc => (hexponent c hc).1)
  rw [magnitudeText, List.append_assoc, List.append_assoc, takeMagnitudeOf?, hwhole]
  show ((takeFraction? _).bind _) = _
  rw [takeFraction?_fractionText h hexponent]
  show ((takeExponent? _).bind _) = _
  rw [takeExponent?_exponentText n.exponent hrest]
  rfl

/-- The digits of a literal come first. -/
theorem exists_magnitudeText (h : n.IsProper) :
    ∃ c cs, n.magnitudeText = c :: cs ∧ c.isDigit = true := by
  obtain ⟨c, cs, hcs⟩ := List.exists_cons_of_ne_nil h.whole_ne_nil
  refine ⟨c, cs ++ (n.fractionText ++ exponentText n.exponent), ?_, ?_⟩
  · rw [magnitudeText, hcs, List.cons_append]
  · exact h.whole_digits c (hcs ▸ List.mem_cons_self)

/-- A number literal is taken off the front of a text that does not go on with it. -/
theorem takeNumber?_print (h : n.IsProper) (hrest : EndsNumber rest) :
    takeNumber? (n.print ++ rest) = some (n, rest) := by
  have hmagnitude := takeMagnitudeOf?_text h hrest
  rw [print_eq]
  cases hsign : n.negative with
  | true =>
    rw [hsign] at hmagnitude
    exact hmagnitude
  | false =>
    rw [hsign] at hmagnitude
    obtain ⟨c, cs, hcs, hdigit⟩ := exists_magnitudeText h
    rw [if_neg Bool.false_ne_true, List.nil_append]
    unfold takeNumber?
    split
    · next heq =>
      rw [hcs] at heq
      rw [(List.cons.inj heq).1] at hdigit
      exact absurd hdigit (by decide)
    · exact hmagnitude

/-- A printed number starts with a minus or a digit. -/
theorem exists_print (h : n.IsProper) :
    ∃ c cs, n.print = c :: cs ∧ (c = '-' ∨ c.isDigit = true) := by
  rw [print_eq]
  cases n.negative with
  | true => exact ⟨'-', n.magnitudeText, rfl, Or.inl rfl⟩
  | false =>
    obtain ⟨c, cs, hcs, hdigit⟩ := exists_magnitudeText h
    exact ⟨c, cs, hcs, Or.inr hdigit⟩

end Number

/-! ## Values -/

mutual

/-- All number literals of the value are proper. -/
def Value.IsProper : Value → Prop
  | .number n => n.IsProper
  | .array elements => AreProper elements
  | .object members => HaveProperValues members
  | .null | .bool _ | .string _ => True

/-- The elements of an array are proper. -/
def AreProper : List Value → Prop
  | [] => True
  | v :: rest => v.IsProper ∧ AreProper rest

/-- The values of the members of an object are proper. -/
def HaveProperValues : List (Literal × Value) → Prop
  | [] => True
  | (_, v) :: rest => v.IsProper ∧ HaveProperValues rest

end

/-- A character that a printed value can start with. -/
def StartsValue (c : Char) : Prop := isBlank c = false ∧ c ≠ ']' ∧ c ≠ '\x7d'

theorem skip_cons {c : Char} (h : isBlank c = false) (cs : List Char) : skip (c :: cs) = c :: cs :=
  List.dropWhile_cons_of_neg (by rw [h]; exact Bool.false_ne_true)

/-- No blank, bracket or letter is a digit. -/
theorem startsNumber {c : Char} (h : c = '-' ∨ c.isDigit = true) :
    StartsValue c ∧ c ≠ '"' ∧ c ≠ '[' ∧ c ≠ '\x7b' ∧ c ≠ 'n' ∧ c ≠ 't' ∧ c ≠ 'f' := by
  rcases h with rfl | hdigit
  · unfold StartsValue
    decide
  · have hne : ∀ d : Char, d.isDigit = false → c ≠ d := fun d => ne_of_isDigit hdigit
    refine ⟨⟨?_, hne _ rfl, hne _ rfl⟩, hne _ rfl, hne _ rfl, hne _ rfl, hne _ rfl, hne _ rfl,
      hne _ rfl⟩
    simp [isBlank, hne]

theorem exists_print {v : Value} (h : v.IsProper) : ∃ c cs, v.print = c :: cs ∧ StartsValue c := by
  cases v with
  | null => exact ⟨'n', "ull".toList, rfl, by decide, by decide, by decide⟩
  | bool b =>
    cases b with
    | true => exact ⟨'t', "rue".toList, rfl, by decide, by decide, by decide⟩
    | false => exact ⟨'f', "alse".toList, rfl, by decide, by decide, by decide⟩
  | number n =>
    rw [Value.IsProper] at h
    obtain ⟨c, cs, hcs, hc⟩ := Number.exists_print h
    exact ⟨c, cs, by rw [Value.print, hcs], (startsNumber hc).1⟩
  | string s =>
    obtain ⟨tail, htail, -⟩ := takeString?_printLiteral s []
    exact ⟨'"', tail, by rw [Value.print, htail], by decide, by decide, by decide⟩
  | array elements => exact ⟨'[', _, by rw [Value.print], by decide, by decide, by decide⟩
  | object members => exact ⟨'\x7b', _, by rw [Value.print], by decide, by decide, by decide⟩

theorem endsNumber_cons {c : Char} (h : c = ',' ∨ c = ']' ∨ c = '\x7d') (cs : List Char) :
    EndsNumber (c :: cs) := by
  intro d hd
  cases hd
  rcases h with rfl | rfl | rfl
  · decide
  · decide
  · decide

theorem takeValue?_number {c : Char} (h : c = '-' ∨ c.isDigit = true) (n : Nat) (cs : List Char) :
    takeValue? (n + 1) (c :: cs) =
      (takeNumber? (c :: cs)).map fun (x, rest) => (.number x, rest) := by
  obtain ⟨⟨hblank, -⟩, hquote, hbracket, hbrace, hn, ht, hf⟩ := startsNumber h
  rw [takeValue?, skip_cons hblank]
  split
  · next heq => exact absurd (List.cons.inj heq).1 hquote
  · next heq => exact absurd (List.cons.inj heq).1 hbracket
  · next heq => exact absurd (List.cons.inj heq).1 hbrace
  · next heq => exact absurd (List.cons.inj heq).1 hn
  · next heq => exact absurd (List.cons.inj heq).1 ht
  · next heq => exact absurd (List.cons.inj heq).1 hf
  · rfl

/-! ### One level of an array or an object -/

section Levels

variable {n : Nat} {cs more rest : List Char} {v : Value} {vs : List Value}
  {ms : List (Literal × Value)}

theorem takeValue?_array {c : Char} (hstart : StartsValue c)
    (h : takeElements? n (c :: cs) = some (vs, rest)) :
    takeValue? (n + 1) ('[' :: c :: cs) = some (.array vs, rest) := by
  rw [takeValue?, skip_cons rfl]
  simp only [skip_cons hstart.1]
  split
  · next heq => exact absurd (List.cons.inj heq).1 hstart.2.1
  · rw [h]
    rfl

theorem takeElements?_last (h : takeValue? n cs = some (v, ']' :: rest)) :
    takeElements? (n + 1) cs = some ([v], rest) := by
  rw [takeElements?, h]
  rfl

theorem takeElements?_cons (h : takeValue? n cs = some (v, ',' :: more))
    (hmore : takeElements? n more = some (vs, rest)) :
    takeElements? (n + 1) cs = some (v :: vs, rest) := by
  rw [takeElements?, h]
  show (takeElements? n more).bind _ = _
  rw [hmore]
  rfl

theorem takeValue?_object (h : takeMembers? n ('"' :: cs) = some (ms, rest)) :
    takeValue? (n + 1) ('\x7b' :: '"' :: cs) = some (.object ms, rest) := by
  rw [takeValue?, skip_cons rfl]
  show (takeMembers? n ('"' :: cs)).map _ = _
  rw [h]
  rfl

variable {name : Literal}

theorem takeMembers?_last (h : takeValue? n cs = some (v, '\x7d' :: rest)) :
    takeMembers? (n + 1) (printLiteral name ++ ':' :: cs) = some ([(name, v)], rest) := by
  obtain ⟨tail, htail, hread⟩ := takeString?_printLiteral name (':' :: cs)
  rw [htail, List.cons_append, takeMembers?, skip_cons rfl]
  show (takeString? (tail ++ ':' :: cs)).bind _ = _
  rw [hread]
  show (takeValue? n cs).bind _ = _
  rw [h]
  rfl

theorem takeMembers?_cons (h : takeValue? n cs = some (v, ',' :: more))
    (hmore : takeMembers? n more = some (ms, rest)) :
    takeMembers? (n + 1) (printLiteral name ++ ':' :: cs) = some ((name, v) :: ms, rest) := by
  obtain ⟨tail, htail, hread⟩ := takeString?_printLiteral name (':' :: cs)
  rw [htail, List.cons_append, takeMembers?, skip_cons rfl]
  show (takeString? (tail ++ ':' :: cs)).bind _ = _
  rw [hread]
  show (takeValue? n cs).bind _ = _
  rw [h]
  show (takeMembers? n more).bind _ = _
  rw [hmore]
  rfl

end Levels

theorem commaSeparated_cons_cons (part next : List Char) (parts : List (List Char)) :
    commaSeparated (part :: next :: parts) = part ++ ',' :: commaSeparated (next :: parts) := rfl

theorem commaSeparated_cons (part : List Char) (parts : List (List Char)) :
    ∃ tail, commaSeparated (part :: parts) = part ++ tail := by
  cases parts with
  | nil => exact ⟨[], (List.append_nil part).symm⟩
  | cons next others => exact ⟨_, commaSeparated_cons_cons part next others⟩

/-! ### All levels -/

mutual

-- The induction is on the value; of two nested calls one takes a character, so twice the length of
-- the text is enough.
theorem takeValue?_print : ∀ (v : Value) {n : Nat} (rest : List Char), v.IsProper →
    2 * v.print.length ≤ n → EndsNumber rest → takeValue? n (v.print ++ rest) = some (v, rest)
  | v, 0, rest, hv, hn, _ => by
    obtain ⟨c, cs, hcs, -⟩ := exists_print hv
    rw [hcs, List.length_cons] at hn
    omega
  | .null, n + 1, rest, _, _, _ => by
    rw [Value.print, takeValue?]
    rfl
  | .bool true, n + 1, rest, _, _, _ => by
    rw [Value.print, takeValue?]
    rfl
  | .bool false, n + 1, rest, _, _, _ => by
    rw [Value.print, takeValue?]
    rfl
  | .number x, n + 1, rest, hv, _, hrest => by
    rw [Value.IsProper] at hv
    have hnumber := Number.takeNumber?_print hv hrest
    obtain ⟨c, cs, hcs, hc⟩ := Number.exists_print hv
    rw [hcs, List.cons_append] at hnumber
    rw [Value.print, hcs, List.cons_append, takeValue?_number hc, hnumber]
    rfl
  | .string s, n + 1, rest, _, _, _ => by
    obtain ⟨tail, htail, hread⟩ := takeString?_printLiteral s rest
    rw [Value.print, htail, List.cons_append, takeValue?, skip_cons rfl]
    show (takeString? (tail ++ rest)).map _ = _
    rw [hread]
    rfl
  | .array [], n + 1, rest, _, _, _ => by
    rw [Value.print, takeValue?]
    rfl
  | .array (v :: vs), n + 1, rest, hv, hn, _ => by
    rw [Value.IsProper, AreProper] at hv
    rw [Value.print, List.length_cons, List.length_append, List.length_singleton] at hn
    have helements := takeElements?_print v vs (n := n) rest hv.1 hv.2 (by omega)
    obtain ⟨c, cs, hcs, hstart⟩ := exists_print hv.1
    obtain ⟨tail, htail⟩ := commaSeparated_cons v.print (printElements vs)
    rw [printElements, htail, hcs] at helements
    rw [Value.print, printElements, htail, hcs, List.cons_append, List.append_assoc]
    exact takeValue?_array hstart helements
  | .object [], n + 1, rest, _, _, _ => by
    rw [Value.print, takeValue?]
    rfl
  | .object ((name, v) :: ms), n + 1, rest, hv, hn, _ => by
    rw [Value.IsProper, HaveProperValues] at hv
    rw [Value.print, List.length_cons, List.length_append, List.length_singleton] at hn
    have hmembers := takeMembers?_print name v ms (n := n) rest hv.1 hv.2 (by omega)
    obtain ⟨mark, hmark, -⟩ := takeString?_printLiteral name []
    obtain ⟨tail, htail⟩ :=
      commaSeparated_cons (printLiteral name ++ ':' :: v.print) (printMembers ms)
    rw [printMembers, htail, hmark] at hmembers
    rw [Value.print, printMembers, htail, hmark, List.cons_append, List.append_assoc]
    exact takeValue?_object hmembers

theorem takeElements?_print : ∀ (v : Value) (vs : List Value) {n : Nat} (rest : List Char),
    v.IsProper → AreProper vs → 2 * (commaSeparated (printElements (v :: vs))).length + 1 ≤ n →
    takeElements? n (commaSeparated (printElements (v :: vs)) ++ ']' :: rest) =
      some (v :: vs, rest)
  | v, [], n + 1, rest, hv, _, hn => by
    rw [printElements, printElements, commaSeparated] at hn ⊢
    exact takeElements?_last
      (takeValue?_print v _ hv (by omega) (endsNumber_cons (Or.inr (Or.inl rfl)) rest))
  | v, w :: ws, n + 1, rest, hv, hvs, hn => by
    rw [AreProper] at hvs
    rw [printElements, printElements, commaSeparated_cons_cons] at hn ⊢
    rw [List.length_append, List.length_cons] at hn
    rw [List.append_assoc, List.cons_append]
    exact takeElements?_cons
      (takeValue?_print v _ hv (by omega) (endsNumber_cons (Or.inl rfl) _))
      (takeElements?_print w ws rest hvs.1 hvs.2 (by rw [printElements]; omega))

theorem takeMembers?_print : ∀ (name : Literal) (v : Value) (ms : List (Literal × Value))
    {n : Nat} (rest : List Char), v.IsProper → HaveProperValues ms →
    2 * (commaSeparated (printMembers ((name, v) :: ms))).length + 1 ≤ n →
    takeMembers? n (commaSeparated (printMembers ((name, v) :: ms)) ++ '\x7d' :: rest) =
      some ((name, v) :: ms, rest)
  | name, v, [], n + 1, rest, hv, _, hn => by
    rw [printMembers, printMembers, commaSeparated, List.length_append, List.length_cons] at hn
    rw [printMembers, printMembers, commaSeparated, List.append_assoc, List.cons_append]
    exact takeMembers?_last
      (takeValue?_print v _ hv (by omega) (endsNumber_cons (Or.inr (Or.inr rfl)) rest))
  | name, v, (next, w) :: ms, n + 1, rest, hv, hvs, hn => by
    rw [HaveProperValues] at hvs
    rw [printMembers, printMembers, commaSeparated_cons_cons, List.length_append, List.length_append,
      List.length_cons, List.length_cons] at hn
    rw [printMembers, printMembers, commaSeparated_cons_cons, List.append_assoc, List.append_assoc,
      List.cons_append, List.cons_append]
    exact takeMembers?_cons
      (takeValue?_print v _ hv (by omega) (endsNumber_cons (Or.inl rfl) _))
      (takeMembers?_print next w ms rest hvs.1 hvs.2 (by rw [printMembers]; omega))

end

/-- A value is read from its text. -/
theorem read?_print {v : Value} (h : v.IsProper) : read? v.print = some v := by
  have hvalue := takeValue?_print v (n := 2 * v.print.length + 2) [] h (by omega) nofun
  rw [List.append_nil] at hvalue
  unfold read?
  rw [hvalue]
  rfl

/-! ## Parts of a text -/

theorem print_ofText (s : String) :
    (Value.ofText s).print = '"' :: (s.toList.flatMap escapeChar ++ ['"']) := by
  rw [Value.ofText, Value.print]
  rfl

theorem infix_commaSeparated {part : List Char} {parts : List (List Char)} (h : part ∈ parts) :
    part <:+: commaSeparated parts := by
  induction parts with
  | nil => cases h
  | cons first rest ih =>
    cases rest with
    | nil =>
      rw [List.mem_singleton.1 h]
      exact List.infix_refl first
    | cons next rest =>
      rw [commaSeparated_cons_cons]
      rcases List.mem_cons.1 h with rfl | hrest
      · exact (List.prefix_append _ _).isInfix
      · exact (ih hrest).trans ((List.suffix_cons ',' _).trans (List.suffix_append _ _)).isInfix

theorem mem_printMembers {name : Literal} {v : Value} {ms : List (Literal × Value)}
    (h : (name, v) ∈ ms) : printLiteral name ++ ':' :: v.print ∈ printMembers ms := by
  induction ms with
  | nil => cases h
  | cons m ms ih =>
    rw [printMembers]
    rcases List.mem_cons.1 h with rfl | hrest
    · exact List.mem_cons_self
    · exact List.mem_cons_of_mem _ (ih hrest)

/-- The text of a member stands in the text of its object. -/
theorem print_infix_object {name : Literal} {v : Value} {ms : List (Literal × Value)}
    (h : (name, v) ∈ ms) : v.print <:+: (Value.object ms).print := by
  have hmember : v.print <:+: printLiteral name ++ ':' :: v.print :=
    ((List.suffix_cons ':' _).trans (List.suffix_append _ _)).isInfix
  have hmembers := infix_commaSeparated (mem_printMembers h)
  rw [Value.print]
  exact (hmember.trans hmembers).trans
    ((List.prefix_append _ ['\x7d']).isInfix.trans (List.suffix_cons '\x7b' _).isInfix)

end UnitLedger.Json
