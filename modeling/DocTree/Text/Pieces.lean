import DocTree.Text.Blank

/-!
# Pieces of a text

Cutting a text at separators and comparing it without regard to the case of ASCII letters.

## Main definitions

* `pieces`: the maximal separator-free pieces of a text, in order, none of them empty.
* `lower`: ASCII letters in lower case, every other character as it is.

## Main results

* `pieces_append_cons`: the pieces on the two sides of a separator are found independently.
-/

namespace DocTree.Text

/-- The maximal pieces of a text that hold no separator, in order, without the empty ones. -/
def pieces (isSeparator : Char → Bool) (text : List Char) : List (List Char) :=
  (text.splitOnP isSeparator).filter fun piece => !piece.isEmpty

/-- The text with its ASCII capitals in lower case. -/
def lower (text : List Char) : List Char :=
  text.map Char.toLower

/-- The pieces on the two sides of a separator are found independently. -/
theorem pieces_append_cons (isSeparator : Char → Bool) (a b : List Char) {s : Char}
    (h : isSeparator s) :
    pieces isSeparator (a ++ s :: b) = pieces isSeparator a ++ pieces isSeparator b := by
  simp [pieces, List.splitOnP_append_cons _ _ h]

/-- A non-empty text without separators is its own only piece. -/
theorem pieces_eq_singleton {isSeparator : Char → Bool} {text : List Char} (h : text ≠ [])
    (free : ∀ c ∈ text, isSeparator c = false) : pieces isSeparator text = [text] := by
  simp [pieces, List.splitOnP_eq_singleton free, h]

end DocTree.Text
