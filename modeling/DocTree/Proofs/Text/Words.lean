import Mathlib.Data.List.Forall2
import Mathlib.Data.List.TakeWhile
import DocTree.Text.Pieces

/-!
# Words of a text

Small facts about the characters of a text that every reader of words needs: which letters become
the same in lower case, which word is left when blank characters are cut off the two ends, and what
it takes to cut a text at a number of bytes. A cut that falls inside a character is not possible,
but a word that consists of ASCII characters has a byte for each of them.

## Main definitions

* `Text.Trims`: a text without the blank characters at its two ends.
* `Text.width`: the number of bytes of a text.
* `Text.cutAt?`: the two parts of a text before and after a number of bytes.
* `Text.dropBytes`: the second of these parts, where its absence is a failure.

## Main results

* `Text.lower_eq_iff`: the ways to write a word in capital and small letters.
* `Text.trims_iff`: what is cut off a text.
* `Text.cutAt?_eq_some_iff`: where a text can be cut.
* `Text.cutAt?_of_lower_take`: a text can be cut after an ASCII word.
-/

namespace DocTree.Text

/-! ### Letters -/

/-- The codes of the capitals. -/
theorem isCapital_iff (c : Char) :
    (c.val ≥ 'A'.val ∧ c.val ≤ 'Z'.val) ↔ 65 ≤ c.toNat ∧ c.toNat ≤ 90 := by
  simp [UInt32.le_iff_toNat_le]

theorem toNat_toLower (c : Char) :
    c.toLower.toNat = if 65 ≤ c.toNat ∧ c.toNat ≤ 90 then c.toNat + 32 else c.toNat := by
  unfold Char.toLower
  simp only [isCapital_iff]
  split
  next =>
    rw [Char.toNat_mk, UInt32.toNat_add]
    simp
    omega
  next => rfl

theorem toNat_toUpper (c : Char) :
    c.toUpper.toNat = if 97 ≤ c.toNat ∧ c.toNat ≤ 122 then c.toNat - 32 else c.toNat := by
  have hsmall : ('a'.val ≤ c.val ∧ c.val ≤ 'z'.val) ↔ 97 ≤ c.toNat ∧ c.toNat ≤ 122 := by
    simp [UInt32.le_iff_toNat_le]
  unfold Char.toUpper
  simp only [hsmall]
  split
  next =>
    -- The difference of the codes is added as a negative number of 32 bits.
    rw [Char.toNat_mk, UInt32.toNat_add]
    simp
    omega
  next => rfl

/-- A character becomes a given one, which is no capital, if it is that character or its capital. -/
theorem toLower_eq_iff {c letter : Char} (hletter : letter.isUpper = false) :
    c.toLower = letter ↔ c = letter ∨ c = letter.toUpper := by
  have hsmall : ¬(65 ≤ letter.toNat ∧ letter.toNat ≤ 90) := by
    rw [← isCapital_iff]
    exact decide_eq_false_iff_not.1 hletter
  simp only [← Char.toNat_inj, toNat_toLower, toNat_toUpper]
  split <;> split <;> omega

theorem lower_eq_iff {word name : List Char} (hname : ∀ letter ∈ name, letter.isUpper = false) :
    lower word = name ↔
      List.Forall₂ (fun c letter => c = letter ∨ c = letter.toUpper) word name := by
  induction name generalizing word with
  | nil => simp [lower]
  | cons letter rest ih =>
    rw [List.forall_mem_cons] at hname
    cases word with
    | nil => simp [lower]
    | cons c more =>
      rw [List.forall₂_cons, ← ih hname.2, ← toLower_eq_iff hname.1]
      simp [lower]

/-! ### Blank ends -/

/-- A word is what is left of a text when the blank characters at its two ends are cut off. -/
structure Trims (text word : List Char) : Prop where
  /-- Blank characters are cut off. -/
  framed : ∃ front back, text = front ++ word ++ back ∧ (∀ c ∈ front, isBlank c) ∧
    ∀ c ∈ back, isBlank c
  /-- There are none left at the beginning. -/
  first : ∀ c ∈ word.head?, isBlank c = false
  /-- There are none left at the end. -/
  last : ∀ c ∈ word.getLast?, isBlank c = false

/-- What is left without the blank characters at one end does not begin with one. -/
theorem isBlank_head?_dropWhile (text : List Char) :
    ∀ c ∈ (text.dropWhile isBlank).head?, isBlank c = false := by
  intro c hc
  have hhead := List.head?_dropWhile_not isBlank text
  rwa [Option.mem_def.1 hc] at hhead

theorem trims_trim (text : List Char) : Trims text (trim text) := by
  -- What is left at the beginning stays there when the other end is cut off.
  have hend := List.takeWhile_append_dropWhile (p := isBlank) (l := (trimStart text).reverse)
  have hstart := List.takeWhile_append_dropWhile (p := isBlank) (l := text)
  have hback : trimStart text =
      trim text ++ ((trimStart text).reverse.takeWhile isBlank).reverse := by
    rw [trim, trimEnd, ← List.reverse_append, hend, List.reverse_reverse]
  refine ⟨⟨text.takeWhile isBlank, ((trimStart text).reverse.takeWhile isBlank).reverse, ?_,
    fun c hc => List.mem_takeWhile_imp hc, fun c hc => ?_⟩, fun c hc => ?_, fun c hc => ?_⟩
  · rw [List.append_assoc, ← hback, trimStart, hstart]
  · exact List.mem_takeWhile_imp (List.mem_reverse.1 hc)
  · refine isBlank_head?_dropWhile text c ?_
    change c ∈ (trimStart text).head?
    rw [hback, List.head?_append, Option.mem_def.1 hc]
    rfl
  · refine isBlank_head?_dropWhile (trimStart text).reverse c ?_
    rwa [trim, trimEnd, List.getLast?_reverse] at hc

/-- Nothing is left exactly of blank texts. -/
theorem trim_eq_nil_iff {text : List Char} : trim text = [] ↔ ∀ c ∈ text, isBlank c := by
  obtain ⟨⟨front, back, htext, hfront, hback⟩, hfirst, -⟩ := trims_trim text
  constructor
  -- What is cut off is blank.
  · intro hnil c hc
    rw [htext, hnil, List.append_nil, List.mem_append] at hc
    exact hc.elim (hfront c) (hback c)
  -- What is left does not begin with a blank character, so it does not begin at all.
  · intro hblank
    rw [← List.head?_eq_none_iff, Option.eq_none_iff_forall_ne_some]
    intro c hc
    have hmem : c ∈ text := by
      rw [htext]
      simp [List.mem_of_head? hc]
    simpa [hblank c hmem] using hfirst c hc

/-- What is left of a text when it is trimmed, and nothing else, comes from cutting blank characters
off its ends. -/
theorem trims_iff {text word : List Char} : Trims text word ↔ trim text = word := by
  constructor
  · rintro ⟨⟨front, back, rfl, hfront, hback⟩, hfirst, hlast⟩
    cases word with
    | nil =>
      rw [trim_eq_nil_iff, List.append_nil]
      exact fun c hc => (List.mem_append.1 hc).elim (hfront c) (hback c)
    | cons c rest =>
      -- The word stops the cutting on both sides.
      have hstart : trimStart (front ++ (c :: rest) ++ back) = c :: rest ++ back := by
        rw [trimStart, List.append_assoc, List.dropWhile_append_of_pos hfront]
        exact trimStart_eq_self hfirst
      have hend : ((c :: rest ++ back).reverse.dropWhile isBlank).reverse = c :: rest := by
        rw [List.reverse_append,
          List.dropWhile_append_of_pos fun d hd => hback d (List.mem_reverse.1 hd)]
        exact trimEnd_eq_self hlast
      rw [trim, hstart, trimEnd, hend]
  · rintro rfl
    exact trims_trim text

/-! ### Bytes -/

/-- The number of bytes that a text takes in UTF-8. -/
def width : List Char → Nat
  | [] => 0
  | c :: rest => c.utf8Size + width rest

/-- The two parts of a text before and after a number of bytes. There are none if the cut would fall
inside a character, or after the end of the text. -/
def cutAt? : Nat → List Char → Option (List Char × List Char)
  | 0, text => some ([], text)
  | _ + 1, [] => none
  | bytes + 1, c :: rest =>
    if c.utf8Size ≤ bytes + 1 then
      (cutAt? (bytes + 1 - c.utf8Size) rest).map fun parts => (c :: parts.1, parts.2)
    else none

/-- A cut that would fall inside a character, or after the end of a text. -/
structure BrokenCut where
  /-- The number of bytes before the cut. -/
  bytes : Nat
  deriving DecidableEq, Repr

/-- The part of a text after a number of bytes, for a caller who is sure that there is one. -/
def dropBytes (bytes : Nat) (text : List Char) : Except BrokenCut (List Char) :=
  match cutAt? bytes text with
  | some parts => .ok parts.2
  | none => .error ⟨bytes⟩

@[simp]
theorem width_nil : width [] = 0 := rfl

@[simp]
theorem width_cons (c : Char) (rest : List Char) :
    width (c :: rest) = c.utf8Size + width rest := rfl

/-- A text can be cut where a part of it ends. -/
theorem cutAt?_append (front back : List Char) :
    cutAt? (width front) (front ++ back) = some (front, back) := by
  induction front with
  | nil => rw [width_nil, List.nil_append, cutAt?]
  | cons c rest ih =>
    obtain ⟨bytes, hbytes⟩ := Nat.exists_eq_succ_of_ne_zero c.utf8Size_pos.ne'
    have hwidth : width (c :: rest) = bytes + width rest + 1 := by
      rw [width_cons, hbytes]
      omega
    have hrest : bytes + width rest + 1 - c.utf8Size = width rest := by omega
    rw [hwidth, List.cons_append, cutAt?, if_pos (by omega), hrest, ih]
    rfl

/-- What comes out of a cut are the parts on its two sides. -/
theorem append_of_cutAt? {bytes : Nat} {text front back : List Char}
    (h : cutAt? bytes text = some (front, back)) : text = front ++ back ∧ width front = bytes := by
  fun_induction cutAt? bytes text generalizing front with
  | case1 text =>
    cases h
    exact ⟨rfl, rfl⟩
  | case2 => cases h
  | case3 bytes c rest hfits ih =>
    obtain ⟨⟨first, last⟩, hcut, heq⟩ := Option.map_eq_some_iff.1 h
    cases heq
    obtain ⟨rfl, hwidth⟩ := ih hcut
    refine ⟨rfl, ?_⟩
    rw [width_cons, hwidth]
    omega
  | case4 => cases h

/-- A text can be cut exactly where one of its parts ends. -/
theorem cutAt?_eq_some_iff {bytes : Nat} {text front back : List Char} :
    cutAt? bytes text = some (front, back) ↔ text = front ++ back ∧ width front = bytes := by
  refine ⟨append_of_cutAt?, ?_⟩
  rintro ⟨rfl, rfl⟩
  exact cutAt?_append front back

/-- A text has a byte for each character if it consists of ASCII characters in lower case. -/
theorem width_of_lower {text word : List Char} (hlower : lower text = word)
    (hword : ∀ letter ∈ word, letter.toNat < 128) : width text = text.length := by
  subst hlower
  induction text with
  | nil => rfl
  | cons c rest ih =>
    rw [lower, List.map_cons, List.forall_mem_cons, toNat_toLower] at hword
    have hcode : c.toNat < 128 := by
      have hfirst := hword.1
      split at hfirst <;> omega
    have hsize : c.utf8Size = 1 :=
      Char.utf8Size_eq_one_iff.2 (UInt32.le_iff_toNat_le.2 (Nat.le_of_lt_succ hcode))
    rw [width_cons, hsize, ih hword.2, List.length_cons, Nat.add_comm]

/-- A text that begins with an ASCII word, in any letters, can be cut after this word. -/
theorem cutAt?_of_lower_take {text word : List Char}
    (hlower : lower (text.take word.length) = word) (hword : ∀ letter ∈ word, letter.toNat < 128) :
    cutAt? word.length text = some (text.take word.length, text.drop word.length) := by
  have hlength : (text.take word.length).length = word.length := by
    simpa [lower] using congrArg List.length hlower
  refine cutAt?_eq_some_iff.2 ⟨(List.take_append_drop ..).symm, ?_⟩
  rw [width_of_lower hlower hword, hlength]

end DocTree.Text
