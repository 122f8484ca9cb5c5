import UnitLedger.Proofs.Binary64.Unique
import UnitLedger.Proofs.Entry.Literal
import UnitLedger.Proofs.Entry.Token
set_option autoImplicit false

/-! # The grammar of entries

What is accepted as an entry, and as which, said without the scanner: the longest number in front
(`Begins`), and behind it a unit token or nothing (`Names`).  A number with a digit is a literal
(`exists_text_eq_iff`), and the scanner takes exactly the longest one (`takeNumber?_eq_some_iff`), so
a text is read exactly if it follows the grammar (`parse?_eq_some_iff`).
-/

namespace UnitLedger.Entry

open Text Binary64 Numeral
open Registry (builtin)

/-! ## Numbers -/

/-- The texts of the form `[+-]?[0-9]*(\.[0-9]*)?`.  They need not have a digit. -/
inductive IsNumeric : List Char → Prop
  | whole (sign : Sign) {whole : List Char} (hwhole : ∀ c ∈ whole, c.isDigit = true) :
      IsNumeric (sign.text ++ whole)
  | pointed (sign : Sign) {whole fraction : List Char} (hwhole : ∀ c ∈ whole, c.isDigit = true)
      (hfraction : ∀ c ∈ fraction, c.isDigit = true) :
      IsNumeric (sign.text ++ (whole ++ '.' :: fraction))

/-- The text begins with the literal and goes on with `rest`, and no longer front of it is of the
form of a number. -/
structure Begins (l : DecimalLiteral) (cs rest : List Char) : Prop where
  split : cs = l.text ++ rest
  longest : ∀ m, IsNumeric m → m <+: cs → m.length ≤ l.text.length

namespace IsNumeric

/-- Behind the first character there are digits and points. -/
theorem tail_chars {m : List Char} (h : IsNumeric m) :
    ∀ c ∈ m.tail, c.isDigit = true ∨ c = '.' := by
  have hbody : ∀ (sign : Sign) {body : List Char},
      (∀ c ∈ body, c.isDigit = true ∨ c = '.') →
        ∀ c ∈ (sign.text ++ body).tail, c.isDigit = true ∨ c = '.' := by
    intro sign body hchars c hc
    cases sign with
    | none => exact hchars c (List.mem_of_mem_tail hc)
    | plus => exact hchars c hc
    | minus => exact hchars c hc
  cases h with
  | whole sign hwhole => exact hbody sign fun c hc => Or.inl (hwhole c hc)
  | pointed sign hwhole hfraction =>
    apply hbody sign
    intro c hc
    rcases List.mem_append.1 hc with hdigit | hrest
    · exact Or.inl (hwhole c hdigit)
    · rcases List.mem_cons.1 hrest with hpoint | hdigit
      · exact Or.inr hpoint
      · exact Or.inl (hfraction c hdigit)

theorem count_point_of_digits {ds : List Char} (h : ∀ c ∈ ds, c.isDigit = true) :
    ds.count '.' = 0 :=
  List.count_eq_zero.2 fun hmem => absurd (h '.' hmem) (by decide)

theorem count_point_sign (sign : Sign) : sign.text.count '.' = 0 := by
  cases sign <;> rfl

/-- There is one point at most. -/
theorem count_point_le {m : List Char} (h : IsNumeric m) : m.count '.' ≤ 1 := by
  cases h with
  | whole sign hwhole =>
    rw [List.count_append, count_point_sign, count_point_of_digits hwhole]
    exact Nat.zero_le 1
  | pointed sign hwhole hfraction =>
    rw [List.count_append, List.count_append, count_point_sign, count_point_of_digits hwhole,
      List.count_cons_self, count_point_of_digits hfraction]

end IsNumeric

namespace DecimalLiteral

variable {l : DecimalLiteral} {cs rest : List Char}

theorem isNumeric_text (l : DecimalLiteral) : IsNumeric l.text := by
  have hwhole := List.all_eq_true.1 l.whole_digits
  have hfraction := List.all_eq_true.1 l.fraction_digits
  unfold text body fractionText
  cases hl : l.fraction with
  | none =>
    dsimp only
    rw [List.append_nil]
    exact .whole l.sign hwhole
  | some digits =>
    rw [hl] at hfraction
    exact .pointed l.sign hwhole hfraction

theorem not_isDigit_sign (sign : Sign) : ∀ c ∈ sign.text, c.isDigit = false := by
  intro c hc
  cases sign with
  | none => cases hc
  | plus =>
    rw [List.mem_singleton.1 hc]
    rfl
  | minus =>
    rw [List.mem_singleton.1 hc]
    rfl

/-- The literals are the texts of that form that have a digit. -/
theorem exists_text_eq_iff {m : List Char} :
    (∃ l : DecimalLiteral, l.text = m) ↔ IsNumeric m ∧ ∃ c ∈ m, c.isDigit = true := by
  constructor
  · rintro ⟨l, rfl⟩
    obtain ⟨c, hc⟩ := List.exists_mem_of_ne_nil _ l.nonempty
    refine ⟨l.isNumeric_text, c, List.mem_append_right _ ?_, ?_⟩
    · rcases List.mem_append.1 hc with hwhole | hfraction
      · exact List.mem_append_left _ hwhole
      · apply List.mem_append_right
        unfold fractionText
        cases hl : l.fraction with
        | none =>
          rw [hl] at hfraction
          cases hfraction
        | some digits =>
          rw [hl] at hfraction
          exact List.mem_cons_of_mem _ hfraction
    · rcases List.mem_append.1 hc with hwhole | hfraction
      · exact List.all_eq_true.1 l.whole_digits c hwhole
      · exact List.all_eq_true.1 l.fraction_digits c hfraction
  · rintro ⟨hm, c, hc, hdigit⟩
    cases hm with
    | @whole sign whole hwhole =>
      have hmem : c ∈ whole := (List.mem_append.1 hc).resolve_left fun hsign => by
        rw [not_isDigit_sign sign c hsign] at hdigit
        cases hdigit
      refine ⟨⟨sign, whole, none, List.all_eq_true.2 hwhole, rfl, ?_⟩, ?_⟩
      · exact List.ne_nil_of_mem (List.mem_append_left _ hmem)
      · exact congrArg (sign.text ++ ·) (List.append_nil whole)
    | @pointed sign whole fraction hwhole hfraction =>
      have hmem : c ∈ whole ++ fraction := by
        rcases List.mem_append.1 hc with hsign | hbody
        · rw [not_isDigit_sign sign c hsign] at hdigit
          cases hdigit
        · rcases List.mem_append.1 hbody with hleft | hright
          · exact List.mem_append_left _ hleft
          · refine List.mem_append_right _ ((List.mem_cons.1 hright).resolve_left ?_)
            exact ne_of_isDigit hdigit rfl
      exact ⟨⟨sign, whole, some fraction, List.all_eq_true.2 hwhole, List.all_eq_true.2 hfraction,
        List.ne_nil_of_mem hmem⟩, rfl⟩

/-- A literal without a point may go on with digits, or with a point. -/
theorem isNumeric_concat {c : Char} (hc : c.isDigit = true ∨ l.fraction = none ∧ c = '.') :
    IsNumeric (l.text ++ [c]) := by
  have hwhole := List.all_eq_true.1 l.whole_digits
  have hfraction := List.all_eq_true.1 l.fraction_digits
  have hmore : ∀ {ds : List Char}, (∀ d ∈ ds, d.isDigit = true) → c.isDigit = true →
      ∀ d ∈ ds ++ [c], d.isDigit = true := by
    intro ds hds hdigit d hd
    rcases List.mem_append.1 hd with hmem | hlast
    · exact hds d hmem
    · rwa [List.mem_singleton.1 hlast]
  unfold text body fractionText
  cases hl : l.fraction with
  | none =>
    dsimp only
    rw [List.append_nil, List.append_assoc]
    rcases hc with hdigit | ⟨-, rfl⟩
    · exact .whole l.sign (hmore hwhole hdigit)
    · exact .pointed l.sign hwhole nofun
  | some digits =>
    rw [hl] at hfraction hc
    have hdigit : c.isDigit = true := hc.resolve_right fun h => nomatch h.1
    rw [List.append_assoc, List.append_assoc]
    exact .pointed l.sign hwhole (hmore hfraction hdigit)

theorem point_mem_text (h : l.fraction ≠ none) : '.' ∈ l.text := by
  unfold text body fractionText
  cases hl : l.fraction with
  | none => exact absurd hl h
  | some digits =>
    exact List.mem_append_right _ (List.mem_append_right _ List.mem_cons_self)

/-- The longest number is the literal that the text does not go on with: a longer one would go on
with a character of numbers, and that could only be a second point. -/
theorem begins_iff : Begins l cs rest ↔ cs = l.text ++ rest ∧ l.Ends rest := by
  constructor
  · rintro ⟨rfl, hlongest⟩
    refine ⟨rfl, fun c hc => ?_⟩
    obtain ⟨more, rfl⟩ := List.head?_eq_some_iff.1 hc
    have hstop : ¬ (c.isDigit = true ∨ l.fraction = none ∧ c = '.') := by
      intro hgoes
      have hle := hlongest _ (isNumeric_concat hgoes) ⟨more, by simp⟩
      rw [List.length_append, List.length_singleton] at hle
      omega
    rw [not_or, not_and, Bool.not_eq_true] at hstop
    exact hstop
  · rintro ⟨rfl, hends⟩
    refine ⟨rfl, fun m hm hprefix => ?_⟩
    by_contra hlonger
    obtain ⟨behind, rfl⟩ : l.text <+: m :=
      List.prefix_of_prefix_length_le (List.prefix_append _ _) hprefix (by omega)
    cases behind with
    | nil =>
      rw [List.append_nil] at hlonger
      exact hlonger (Nat.le_refl _)
    | cons c behind =>
      obtain ⟨more, hmore⟩ := hprefix
      rw [List.append_assoc] at hmore
      have hrest : c ∈ rest.head? := by
        rw [← List.append_cancel_left hmore]
        rfl
      have htail : c ∈ (l.text ++ c :: behind).tail := by
        rw [List.tail_append_of_ne_nil l.text_ne_nil]
        exact List.mem_append_right _ List.mem_cons_self
      obtain ⟨hdigit, hpoint⟩ := hends c hrest
      obtain rfl : c = '.' := (hm.tail_chars c htail).resolve_left (by simp [hdigit])
      have hfirst := List.count_pos_iff.2 (point_mem_text fun h => hpoint h rfl)
      have hcount := hm.count_point_le
      rw [List.count_append, List.count_cons_self] at hcount
      omega

/-- A text that a literal is taken off begins with one that it does not go on with. -/
theorem exists_of_take? (sign : Sign) {taken : Literal}
    (h : Literal.take? cs = some (taken, rest)) :
    ∃ l : DecimalLiteral, l.sign = sign ∧ cs = l.body ++ rest ∧ l.Ends rest := by
  have hsplit := List.takeWhile_append_dropWhile (p := Char.isDigit) (l := cs)
  unfold Literal.take? at h
  dsimp only at h
  split at h
  · next after hafter =>
    split at h
    · cases h
    · next hsome =>
      obtain ⟨-, rfl⟩ := Prod.mk.inj (Option.some.inj h)
      refine ⟨⟨sign, cs.takeWhile Char.isDigit, some (after.takeWhile Char.isDigit),
        List.all_takeWhile, List.all_takeWhile, ?_⟩, rfl, ?_, ?_⟩
      · rintro hnil
        exact hsome (List.append_eq_nil_iff.1 hnil)
      · show cs = cs.takeWhile Char.isDigit ++ '.' :: after.takeWhile Char.isDigit ++
          after.dropWhile Char.isDigit
        rw [List.append_assoc, List.cons_append, List.takeWhile_append_dropWhile, ← hafter, hsplit]
      · intro c hc
        have hstop := List.head?_dropWhile_not Char.isDigit after
        rw [Option.mem_def.1 hc] at hstop
        exact ⟨hstop, fun hnone => nomatch hnone⟩
  · next hother =>
    split at h
    · cases h
    · next hne =>
      obtain ⟨-, rfl⟩ := Prod.mk.inj (Option.some.inj h)
      refine ⟨⟨sign, cs.takeWhile Char.isDigit, none, List.all_takeWhile, rfl, ?_⟩, rfl, ?_, ?_⟩
      · exact List.append_ne_nil_of_left_ne_nil hne _
      · show cs = cs.takeWhile Char.isDigit ++ [] ++ cs.dropWhile Char.isDigit
        rw [List.append_nil, hsplit]
      · intro c hc
        have hstop := List.head?_dropWhile_not Char.isDigit cs
        obtain ⟨more, hmore⟩ := List.head?_eq_some_iff.1 hc
        rw [Option.mem_def.1 hc] at hstop
        refine ⟨hstop, fun _ hpoint => ?_⟩
        rw [hpoint] at hmore
        exact hother more hmore

/-- The number that a literal writes, its sign apart. -/
def magnitude (l : DecimalLiteral) : Rat :=
  Nat.ofDigitChars 10 (l.whole ++ l.fraction.getD []) 0 / 10 ^ (l.fraction.getD []).length

theorem roundsTo_double (l : DecimalLiteral) :
    RoundsTo (decide (l.sign = .minus)) l.magnitude l.double := by
  have hround := roundsTo_ofDecimal (decide (l.sign = .minus))
    (Nat.ofDigitChars 10 (l.whole ++ l.fraction.getD []) 0) (-((l.fraction.getD []).length : Int))
  rwa [zpow_neg, zpow_natCast, ← div_eq_mul_inv] at hround

end DecimalLiteral

theorem exists_sign (cs : List Char) :
    ∃ (sign : Sign) (digits : List Char),
      splitSign cs = (decide (sign = .minus), digits) ∧ cs = sign.text ++ digits := by
  unfold splitSign
  split
  · exact ⟨.minus, _, rfl, rfl⟩
  · exact ⟨.plus, _, rfl, rfl⟩
  · exact ⟨.none, _, rfl, rfl⟩

/-- The scanner takes the longest number in front of a text, if that has a digit. -/
theorem takeNumber?_eq_some_iff {cs rest : List Char} {b : Binary64} :
    takeNumber? cs = some (b, rest) ↔ ∃ l : DecimalLiteral, Begins l cs rest ∧ l.double = b := by
  constructor
  · intro h
    obtain ⟨sign, digits, hsign, rfl⟩ := exists_sign cs
    have htaken := h
    unfold takeNumber? at htaken
    rw [hsign] at htaken
    obtain ⟨⟨taken, behind⟩, htake, heq⟩ := Option.map_eq_some_iff.1 htaken
    obtain ⟨-, rfl⟩ := Prod.mk.inj heq
    obtain ⟨l, rfl, rfl, hends⟩ := DecimalLiteral.exists_of_take? sign htake
    have htext : l.sign.text ++ (l.body ++ behind) = l.text ++ behind := by
      rw [DecimalLiteral.text, List.append_assoc]
    rw [htext, takeNumber?_of_ends hends] at h
    exact ⟨l, DecimalLiteral.begins_iff.2 ⟨htext, hends⟩, (Prod.mk.inj (Option.some.inj h)).1⟩
  · rintro ⟨l, hbegins, rfl⟩
    obtain ⟨rfl, hends⟩ := DecimalLiteral.begins_iff.1 hbegins
    exact takeNumber?_of_ends hends

/-! ## Tokens -/

/-- What stands behind the number, without blanks around it, and the unit that it gives: nothing, a
quotation mark or prime, or a word.  A word starts with a letter and goes on with letters, numbers
and joining characters; with a digit or a space in it the registry has to know it. -/
inductive Names : List Char → Option String → Prop
  | nothing : Names [] none
  | inches {token : List Char}
      (h : token ∈ [['"'], [Char.ofNat 39, Char.ofNat 39], ['″']]) : Names token (some "INCH")
  | feet {token : List Char} (h : token ∈ [[Char.ofNat 39], ['′']]) : Names token (some "FT")
  | word {c : Char} {cs : List Char} (hletter : isAlphabetic c = true)
      (hcs : ∀ d ∈ cs, isAlphanumeric d = true ∨ d ∈ ['²', '³', '^', '_', '-', ' '])
      (hknown : (∃ d ∈ c :: cs, d.isDigit = true ∨ d = ' ') →
        ∃ u, builtin.find? (String.ofList (c :: cs)) = some u) :
      Names (c :: cs) (some (String.ofList (upperCase.text (c :: cs))))

/-- The family of a unit: that of the registry, if it knows the unit and does not count with it. -/
def family (unit : Option String) : EntrySystem := (unit.map registeredSystem).getD .each

theorem isTokenChar_iff (c : Char) : isTokenChar c = true ↔
    isAlphanumeric c = true ∨ c ∈ ['²', '³', '^', '_', '-', ' '] := by
  simp [isTokenChar, or_assoc]

theorem isUnitWord_cons_iff {c : Char} {cs : List Char} : isUnitWord (c :: cs) = true ↔
    isAlphabetic c = true ∧
      (∀ d ∈ cs, isAlphanumeric d = true ∨ d ∈ ['²', '³', '^', '_', '-', ' ']) ∧
      ((∃ d ∈ c :: cs, d.isDigit = true ∨ d = ' ') →
        ∃ u, builtin.find? (String.ofList (c :: cs)) = some u) := by
  have hknown : (!(c :: cs).any (fun d => d.isDigit || d == ' ') ||
      (builtin.find? (String.ofList (c :: cs))).isSome) = true ↔
      ((∃ d ∈ c :: cs, d.isDigit = true ∨ d = ' ') →
        ∃ u, builtin.find? (String.ofList (c :: cs)) = some u) := by
    rw [Bool.or_eq_true, Bool.not_eq_true', ← Bool.not_eq_true, ← imp_iff_not_or,
      List.any_eq_true, Option.isSome_iff_exists]
    simp only [Bool.or_eq_true, beq_iff_eq]
  unfold isUnitWord isWord
  rw [Bool.and_eq_true, Bool.and_eq_true, List.all_eq_true, hknown, and_assoc]
  simp only [isTokenChar_iff]

set_option maxRecDepth 4000 in
theorem isAlphabetic_quotes :
    ∀ quote ∈ [['"'], [Char.ofNat 39, Char.ofNat 39], ['″'], [Char.ofNat 39], ['′']],
      quote.head?.any isAlphabetic = false := by
  decide

/-- No quotation mark starts with a letter. -/
theorem quoteUnit?_of_letter {c : Char} {cs : List Char} (h : isAlphabetic c = true) :
    quoteUnit? (c :: cs) = none := by
  have hno : ∀ quote ∈ [['"'], [Char.ofNat 39, Char.ofNat 39], ['″'], [Char.ofNat 39], ['′']],
      c :: cs ≠ quote := by
    rintro quote hquote rfl
    have hfirst := isAlphabetic_quotes _ hquote
    rw [List.head?_cons, Option.any_some, h] at hfirst
    cases hfirst
  simp only [List.forall_mem_cons] at hno
  obtain ⟨hdouble, htwo, hprimes, hsingle, hprime, -⟩ := hno
  unfold quoteUnit?
  rw [if_neg, if_neg]
  · exact not_or.2 ⟨hsingle, hprime⟩
  · exact not_or.2 ⟨hdouble, not_or.2 ⟨htwo, hprimes⟩⟩

theorem tokenUnit?_quotes :
    (∀ token ∈ [['"'], [Char.ofNat 39, Char.ofNat 39], ['″']],
        token ≠ [] ∧ tokenUnit? token = some "INCH".toList) ∧
      ∀ token ∈ [[Char.ofNat 39], ['′']],
        token ≠ [] ∧ tokenUnit? token = some "FT".toList := by
  decide

theorem names_of_quoteUnit? {token u : List Char} (h : quoteUnit? token = some u) :
    Names token (some (String.ofList u)) := by
  unfold quoteUnit? at h
  split at h
  · next hinches =>
    cases h
    exact .inches (by simpa using hinches)
  · split at h
    · next hfeet =>
      cases h
      exact .feet (by simpa using hfeet)
    · cases h

theorem names_of_tokenUnit? {token u : List Char} (hne : token ≠ [])
    (h : tokenUnit? token = some u) : Names token (some (String.ofList u)) := by
  unfold tokenUnit? at h
  split at h
  · next quoted hquoted =>
    cases h
    exact names_of_quoteUnit? hquoted
  · split at h
    · next hword =>
      cases h
      obtain ⟨c, cs, rfl⟩ := List.exists_cons_of_ne_nil hne
      obtain ⟨hletter, hcs, hknown⟩ := isUnitWord_cons_iff.1 hword
      exact .word hletter hcs hknown
    · cases h

/-- The grammar of tokens gives what the reader gives. -/
theorem names_iff {token : List Char} {unit : Option String} : Names token unit ↔
    if token = [] then unit = none
    else ∃ u, tokenUnit? token = some u ∧ unit = some (String.ofList u) := by
  constructor
  · intro h
    cases h with
    | nothing => exact (if_pos rfl).mpr rfl
    | inches h =>
      obtain ⟨hne, hunit⟩ := tokenUnit?_quotes.1 token h
      exact (if_neg hne).mpr ⟨_, hunit, rfl⟩
    | feet h =>
      obtain ⟨hne, hunit⟩ := tokenUnit?_quotes.2 token h
      exact (if_neg hne).mpr ⟨_, hunit, rfl⟩
    | word hletter hcs hknown =>
      rw [if_neg (List.cons_ne_nil _ _)]
      refine ⟨_, ?_, rfl⟩
      unfold tokenUnit?
      rw [quoteUnit?_of_letter hletter]
      dsimp only
      rw [if_pos (isUnitWord_cons_iff.2 ⟨hletter, hcs, hknown⟩)]
  · intro h
    split at h
    · next hnil =>
      rw [hnil, h]
      exact .nothing
    · next hne =>
      obtain ⟨u, hu, rfl⟩ := h
      exact names_of_tokenUnit? hne hu

/-! ## Entries -/

/-- A text is an entry exactly if, without the blanks around it and without its commas, it begins
with a number of some digit and goes on with what gives a unit or none.  The number is the longest
one that stands there, and its nearest double, which has to be finite, is the quantity; the family
is that of the unit. -/
theorem parse?_eq_some_iff (text : String) (e : Entry) :
    parse? text = some e ↔
      ∃ (l : DecimalLiteral) (rest : List Char),
        Begins l ((trim text.toList).filter (· != ',')) rest ∧
          RoundsTo (decide (l.sign = .minus)) l.magnitude (.finite e.quantity) ∧
          Names (trim rest) e.unit ∧ e.system = family e.unit := by
  constructor
  · intro h
    unfold parse? clean at h
    split at h
    · next quantity rest htake =>
      obtain ⟨l, hbegins, hdouble⟩ := takeNumber?_eq_some_iff.1 htake
      have hround := l.roundsTo_double
      rw [hdouble] at hround
      dsimp only at h
      split at h
      · next hnil =>
        obtain rfl := Option.some.inj h
        exact ⟨l, rest, hbegins, hround, names_iff.2 ((if_pos hnil).mpr rfl), rfl⟩
      · next hne =>
        obtain ⟨u, hu, rfl⟩ := Option.map_eq_some_iff.1 h
        exact ⟨l, rest, hbegins, hround, names_iff.2 ((if_neg hne).mpr ⟨u, hu, rfl⟩),
          classify_eq_registeredSystem _⟩
    · cases h
  · rintro ⟨l, rest, hbegins, hround, hnames, hsystem⟩
    obtain ⟨quantity, unit, system⟩ := e
    dsimp only at hround hnames hsystem
    have htake := takeNumber?_eq_some_iff.2 ⟨l, hbegins, l.roundsTo_double.unique hround⟩
    rw [names_iff] at hnames
    unfold parse? clean
    rw [htake]
    dsimp only
    split at hnames
    · next hnil =>
      subst hnames hsystem
      exact if_pos hnil
    · next hne =>
      obtain ⟨u, hu, rfl⟩ := hnames
      rw [if_neg hne, hu, Option.map_some, hsystem, classify_eq_registeredSystem]
      rfl

end UnitLedger.Entry
