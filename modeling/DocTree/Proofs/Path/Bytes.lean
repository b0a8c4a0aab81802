import DocTree.Path.Order
import Mathlib.Algebra.Group.Nat.Defs
import Mathlib.Tactic.SplitIfs

/-!
# The order of paths and the order of bytes

Paths are ordered by the characters of their texts. The encoding of texts as bytes keeps this order:
of two characters the greater one starts with a greater byte if its encoding is longer, and if both
have the same length, the bytes are digits of the code points, the highest digit first.

## Main definitions

* `Path.bytes`: the bytes of the text of a path.

## Main results

* `Path.utf8EncodeChar_append_lt`: the bytes of the smaller of two characters come first, whatever
  follows them.
* `Path.lt_iff_bytes_lt`: the order of paths is the order of their bytes.
-/

namespace DocTree.Path

/-- The bytes of the text of a path in UTF-8. -/
def bytes (p : Path) : List UInt8 :=
  p.text.toUTF8.data.toList

theorem bytes_eq_flatMap (p : Path) : p.bytes = p.chars.flatMap String.utf8EncodeChar := by
  simp [bytes, text, List.utf8Encode]

/-! ### Characters -/

/-- A number as bytes: one byte with what is left of the number, moved up by an offset, and then as
many digits in base 64 as asked for. -/
def digits (offset : Nat) : Nat → Nat → List UInt8
  | 0, n => [UInt8.ofNat (n + offset)]
  | count + 1, n => digits offset count (n / 64) ++ [UInt8.ofNat (n % 64 + 128)]

theorem ofNat_cons_lt_ofNat_cons {m n : Nat} (h : m < n) (hn : n < 256) (s t : List UInt8) :
    UInt8.ofNat m :: s < UInt8.ofNat n :: t := by
  rw [List.cons_lt_cons_iff]
  left
  rw [UInt8.ofNat_lt_iff_lt _ hn]
  · exact h
  · simp only [UInt8.size]
    omega

theorem exists_digits_eq_cons (offset count n : Nat) :
    ∃ rest, digits offset count n = UInt8.ofNat (n / 64 ^ count + offset) :: rest := by
  induction count generalizing n with
  | zero => exact ⟨[], by simp [digits]⟩
  | succ count ih =>
    obtain ⟨rest, hrest⟩ := ih (n / 64)
    refine ⟨rest ++ [UInt8.ofNat (n % 64 + 128)], ?_⟩
    rw [digits, hrest, Nat.div_div_eq_div_mul, Nat.pow_succ']
    rfl

/-- As long as the first byte does not overflow, the digits of the smaller number come first. -/
theorem digits_append_lt {offset count m n : Nat} (h : m < n)
    (hn : n / 64 ^ count + offset < 256) (s t : List UInt8) :
    digits offset count m ++ s < digits offset count n ++ t := by
  induction count generalizing m n s t with
  | zero => exact ofNat_cons_lt_ofNat_cons (by omega) (by simpa using hn) s t
  | succ count ih =>
    rw [Nat.pow_succ', ← Nat.div_div_eq_div_mul] at hn
    simp only [digits, List.append_assoc, List.singleton_append]
    -- The last digit decides if the digits before it agree.
    by_cases hfront : m / 64 < n / 64
    · exact ih hfront hn _ _
    · have hsame : m / 64 = n / 64 := by omega
      rw [hsame]
      apply List.append_left_lt
      apply ofNat_cons_lt_ofNat_cons <;> omega

/-- How many bytes follow the first one in the encoding of a code point. -/
def following (n : Nat) : Nat :=
  if n < 0x80 then 0 else if n < 0x800 then 1 else if n < 0x10000 then 2 else 3

/-- What the first byte has more than the highest digit, by which it tells how many bytes follow. -/
def mark : Nat → Nat
  | 0 => 0
  | 1 => 0xC0
  | 2 => 0xE0
  | _ => 0xF0

/-- The first byte in the encoding of a code point. -/
def firstByte (n : Nat) : Nat :=
  n / 64 ^ following n + mark (following n)

theorem toNat_lt (c : Char) : c.toNat < 0x110000 := by
  rcases c.valid with hc | hc <;> simp only [Char.toNat] <;> omega

/-- A character is encoded as the digits of its code point. -/
theorem utf8EncodeChar_eq_digits (c : Char) :
    String.utf8EncodeChar c =
      digits (mark (following c.toNat)) (following c.toNat) c.toNat := by
  have hc := toNat_lt c
  simp only [String.utf8EncodeChar, Char.toNat] at hc ⊢
  generalize c.val.toNat = n at hc
  unfold following
  -- The highest digit is not cut off, since the code point has no more digits than bytes.
  split_ifs <;> try omega
  · simp [digits, mark]
  · have hfirst : n / 64 % 32 = n / 64 := by omega
    simp [digits, mark, hfirst]
  · have hfirst : n / 4096 % 16 = n / 4096 := by omega
    simp [digits, mark, hfirst, Nat.div_div_eq_div_mul]
  · have hfirst : n / 262144 % 8 = n / 262144 := by omega
    simp [digits, mark, hfirst, Nat.div_div_eq_div_mul]

theorem firstByte_lt {n : Nat} (hn : n < 0x110000) : firstByte n < 256 := by
  unfold firstByte following
  split_ifs <;> simp only [mark] <;> omega

/-- If the encoding of a greater code point is longer, then its first byte is greater. -/
theorem firstByte_lt_firstByte {m n : Nat} (h : m < n) (hlonger : following m ≠ following n) :
    firstByte m < firstByte n := by
  unfold firstByte
  unfold following at hlonger ⊢
  split_ifs at hlonger ⊢ <;> simp only [mark] <;> omega

/-- The bytes of the smaller of two characters come first, whatever follows them. -/
theorem utf8EncodeChar_append_lt {c d : Char} (h : c < d) (s t : List UInt8) :
    String.utf8EncodeChar c ++ s < String.utf8EncodeChar d ++ t := by
  have hlt : c.toNat < d.toNat := UInt32.lt_iff_toNat_lt.1 h
  have hfits : firstByte d.toNat < 256 := firstByte_lt (toNat_lt d)
  rw [utf8EncodeChar_eq_digits, utf8EncodeChar_eq_digits]
  by_cases hlength : following c.toNat = following d.toNat
  · rw [hlength]
    exact digits_append_lt hlt hfits s t
  · -- The first bytes decide.
    have hfirst := firstByte_lt_firstByte hlt hlength
    obtain ⟨front, hfront⟩ := exists_digits_eq_cons (mark (following c.toNat)) (following c.toNat)
      c.toNat
    obtain ⟨back, hback⟩ := exists_digits_eq_cons (mark (following d.toNat)) (following d.toNat)
      d.toNat
    rw [hfront, hback]
    exact ofNat_cons_lt_ofNat_cons hfirst hfits _ _

/-! ### Texts -/

theorem flatMap_utf8EncodeChar_lt {a b : List Char} (h : a < b) :
    a.flatMap String.utf8EncodeChar < b.flatMap String.utf8EncodeChar := by
  induction a generalizing b with
  | nil =>
    cases b with
    | nil => exact absurd h (List.lt_irrefl _)
    | cons d b =>
      obtain ⟨first, rest, hd⟩ := List.exists_cons_of_ne_nil (String.utf8EncodeChar_ne_nil (c := d))
      simp [hd]
  | cons c a ih =>
    cases b with
    | nil => exact absurd h (List.not_lt_nil _)
    | cons d b =>
      simp only [List.flatMap_cons]
      rcases List.cons_lt_cons_iff.1 h with hfirst | ⟨rfl, hrest⟩
      · exact utf8EncodeChar_append_lt hfirst _ _
      · exact List.append_left_lt (ih hrest)

theorem bytes_lt_of_lt {a b : Path} (h : a < b) : a.bytes < b.bytes := by
  rw [bytes_eq_flatMap, bytes_eq_flatMap]
  exact flatMap_utf8EncodeChar_lt h

/-- The order of paths is the order of their bytes. -/
theorem lt_iff_bytes_lt {a b : Path} : a < b ↔ a.bytes < b.bytes := by
  refine ⟨bytes_lt_of_lt, fun h => ?_⟩
  -- If the paths were equal or in the other order, their bytes would be too.
  refine Classical.byContradiction fun hno => ?_
  by_cases heq : a = b
  · exact List.lt_irrefl _ (heq ▸ h)
  · exact List.lt_asymm h (bytes_lt_of_lt (lt_of_not_lt_of_ne hno heq))

end DocTree.Path
