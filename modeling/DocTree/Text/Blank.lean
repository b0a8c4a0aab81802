/-!
# Blank characters

The characters of Unicode's White_Space property, and the functions that cut them off a text.
Texts are handled here as lists of characters.

## Main definitions

* `isBlank`: membership in the White_Space property, read off the table `blankRanges`.
* `trim`: a text without the blank characters at its two ends.

## Main results

* `isBlank_of_isWhitespace`: every whitespace character of the core library is blank.
* `trim_eq_self`: a text whose two ends are not blank is left as it is.
-/

namespace DocTree.Text

/-- The White_Space property as ranges of code points, in increasing order, both ends included. -/
def blankRanges : List (Nat × Nat) :=
  [(0x09, 0x0D), (0x20, 0x20), (0x85, 0x85), (0xA0, 0xA0), (0x1680, 0x1680), (0x2000, 0x200A),
    (0x2028, 0x2029), (0x202F, 0x202F), (0x205F, 0x205F), (0x3000, 0x3000)]

/-- Whether a character has the White_Space property. -/
def isBlank (c : Char) : Bool :=
  blankRanges.any fun range => range.1 ≤ c.toNat && c.toNat ≤ range.2

/-- A text without its leading blank characters. -/
def trimStart (text : List Char) : List Char :=
  text.dropWhile isBlank

/-- A text without its trailing blank characters. -/
def trimEnd (text : List Char) : List Char :=
  (text.reverse.dropWhile isBlank).reverse

/-- A text without the blank characters at its two ends. -/
def trim (text : List Char) : List Char :=
  trimEnd (trimStart text)

/-- Every whitespace character of the core library is blank. -/
theorem isBlank_of_isWhitespace {c : Char} (h : c.isWhitespace) : isBlank c := by
  simp only [Char.isWhitespace, Bool.or_eq_true, decide_eq_true_eq] at h
  rcases h with ((rfl | rfl) | rfl) | rfl <;> decide

/-- Nothing is cut off the front of a text that does not start with a blank character. -/
theorem trimStart_eq_self {text : List Char} (h : ∀ c ∈ text.head?, isBlank c = false) :
    trimStart text = text := by
  cases text with
  | nil => rfl
  | cons c rest => simp [trimStart, h c (by simp)]

/-- Nothing is cut off the back of a text that does not end with a blank character. -/
theorem trimEnd_eq_self {text : List Char} (h : ∀ c ∈ text.getLast?, isBlank c = false) :
    trimEnd text = text := by
  have : text.reverse.dropWhile isBlank = text.reverse :=
    trimStart_eq_self (by simpa using h)
  simp [trimEnd, this]

/-- A text whose two ends are not blank is left as it is. -/
theorem trim_eq_self {text : List Char} (first : ∀ c ∈ text.head?, isBlank c = false)
    (last : ∀ c ∈ text.getLast?, isBlank c = false) : trim text = text := by
  rw [trim, trimStart_eq_self first, trimEnd_eq_self last]

end DocTree.Text
