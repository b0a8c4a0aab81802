/-!
# Unsigned decimal numbers

Reading and writing natural numbers as decimal digits.

## Main definitions

* `readDigits?`: the number that a non-empty run of decimal digits denotes.
* `writeDigits`: the digits of a number, without leading zeros.

## Main results

* `readDigits?_writeDigits`: a number is read back from its digits.
-/

namespace DocTree.Text

/-- The number that a non-empty run of decimal digits denotes; leading zeros are allowed. -/
def readDigits? (text : List Char) : Option Nat :=
  if !text.isEmpty && text.all Char.isDigit then some (Nat.ofDigitChars 10 text 0) else none

/-- The decimal digits of a number, without leading zeros. -/
def writeDigits (n : Nat) : List Char :=
  Nat.toDigits 10 n

/-- A number is read back from its digits. -/
@[simp]
theorem readDigits?_writeDigits (n : Nat) : readDigits? (writeDigits n) = some n := by
  have digits : ∀ c ∈ Nat.toDigits 10 n, c.isDigit := fun c h =>
    Nat.isDigit_of_mem_toDigits (by decide) (by decide) h
  simp [readDigits?, writeDigits, Nat.ofDigitChars_toDigits, List.all_eq_true.2 digits]

end DocTree.Text
