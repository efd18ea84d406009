/-!
# Blank characters

The characters that separate lexemes and pad cells: the white space of Unicode together with the
four information separators. A few of them also end a line.

## Main definitions

* `isBlank`, `isLineBreak`: the two classes of characters
* `trim`: a text without the blank characters at its ends

## Main results

* `isBlank_of_isLineBreak`: a line break is blank
* `trim_nil`, `trim_eq_self`: nothing is trimmed from a text that neither begins nor ends in a blank
-/

namespace DecimalSheet.Text

/-- The first and the last code point of every run of blank characters. -/
def blankRanges : List (Nat × Nat) :=
  [(0x09, 0x0D), (0x1C, 0x20), (0x85, 0x85), (0xA0, 0xA0), (0x1680, 0x1680), (0x2000, 0x200A),
    (0x2028, 0x2029), (0x202F, 0x202F), (0x205F, 0x205F), (0x3000, 0x3000)]

/-- A blank character: Unicode white space or an information separator. -/
def isBlank (c : Char) : Bool :=
  blankRanges.any fun r => r.1 ≤ c.toNat && c.toNat ≤ r.2

/-- The first and the last code point of every run of line breaks. -/
def lineBreakRanges : List (Nat × Nat) :=
  [(0x0A, 0x0D), (0x1C, 0x1E), (0x85, 0x85), (0x2028, 0x2029)]

/-- A character that ends a line. A carriage return and a line feed after it end one line
together. -/
def isLineBreak (c : Char) : Bool :=
  lineBreakRanges.any fun r => r.1 ≤ c.toNat && c.toNat ≤ r.2

theorem isBlank_of_isLineBreak {c : Char} (h : isLineBreak c = true) : isBlank c = true := by
  simp [isLineBreak, lineBreakRanges, isBlank, blankRanges] at h ⊢
  omega

/-- The text without the blank characters at its end. -/
def trimEnd (cs : List Char) : List Char :=
  (cs.reverse.dropWhile isBlank).reverse

/-- The text without the blank characters at both ends. -/
def trim (cs : List Char) : List Char :=
  trimEnd (cs.dropWhile isBlank)

@[simp] theorem trim_nil : trim [] = [] := rfl

theorem trim_eq_self {cs : List Char} (hhead : ∀ c ∈ cs.head?, isBlank c = false)
    (hlast : ∀ c ∈ cs.getLast?, isBlank c = false) : trim cs = cs := by
  have hstart : cs.dropWhile isBlank = cs := by
    cases cs with
    | nil => rfl
    | cons c cs => simp [hhead c (by simp)]
  have hstop : cs.reverse.dropWhile isBlank = cs.reverse := by
    cases hr : cs.reverse with
    | nil => rfl
    | cons c r =>
      have hc : cs.getLast? = some c := by rw [← List.head?_reverse, hr]; rfl
      simp [hlast c (by simp [hc])]
  rw [trim, hstart, trimEnd, hstop, List.reverse_reverse]

end DecimalSheet.Text
