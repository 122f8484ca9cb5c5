set_option autoImplicit false

/-! # Blank characters

The characters of the Unicode property White_Space, and the text left when they are taken off both
ends.  `trim_eq_self` says that a text without blanks at its ends is left alone.
-/

namespace UnitLedger.Text

/-- The White_Space characters as ranges of code points, both ends included. -/
def blankRanges : List (Nat × Nat) :=
  [(0x9, 0xD), (0x20, 0x20), (0x85, 0x85), (0xA0, 0xA0), (0x1680, 0x1680), (0x2000, 0x200A),
    (0x2028, 0x2029), (0x202F, 0x202F), (0x205F, 0x205F), (0x3000, 0x3000)]

/-- The code point lies in one of the ranges. -/
def inRanges (ranges : List (Nat × Nat)) (n : Nat) : Bool :=
  ranges.any fun r => r.1 ≤ n && n ≤ r.2

def isBlank (c : Char) : Bool := inRanges blankRanges c.toNat

/-- The text without the blanks at its end. -/
def trimEnd (cs : List Char) : List Char := (cs.reverse.dropWhile isBlank).reverse

/-- The text without the blanks at its two ends. -/
def trim (cs : List Char) : List Char := trimEnd (cs.dropWhile isBlank)

@[simp] theorem trim_nil : trim [] = [] := rfl

theorem trimEnd_eq_self {cs : List Char} (h : ∀ c ∈ cs.getLast?, isBlank c = false) :
    trimEnd cs = cs := by
  unfold trimEnd
  rw [List.getLast?_eq_head?_reverse] at h
  cases hr : cs.reverse with
  | nil => simpa using hr
  | cons c r =>
    have hc : isBlank c = false := h c (by simp [hr])
    rw [List.dropWhile_cons_of_neg (by simp [hc]), ← hr, List.reverse_reverse]

theorem trim_eq_self {cs : List Char} (hfirst : ∀ c ∈ cs.head?, isBlank c = false)
    (hlast : ∀ c ∈ cs.getLast?, isBlank c = false) : trim cs = cs := by
  unfold trim
  cases cs with
  | nil => rfl
  | cons c r =>
    have hc : isBlank c = false := hfirst c (by simp)
    rw [List.dropWhile_cons_of_neg (by simp [hc])]
    exact trimEnd_eq_self hlast

end UnitLedger.Text
