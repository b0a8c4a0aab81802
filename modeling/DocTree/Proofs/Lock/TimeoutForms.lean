import DocTree.Lock.Timeout
import DocTree.Proofs.Text.Words

/-!
# Written timeouts

A timeout is written as one word, or as another word and decimal digits right behind it, in letters
of any case and with any blank characters around it. The reader follows this grammar with one
exception: it also takes a plus sign before the digits. A header lists such forms with commas
between them, and the first entry that can be read counts.

The reader may be run on bytes. It then looks at the first seven bytes of a text and at what comes
after them, and neither is possible if the seventh byte is not the last one of a character. Texts
that begin with the word for seconds can always be cut there.

## Main definitions

* `Timeout.DenotesSeconds`: decimal digits stand for a number of seconds.
* `Timeout.Spells`: the grammar of timeouts; `Timeout.SpellsSigned` is the exception to it.
* `Timeout.Understood`: what is left of a text without its blank ends is one of these forms.
* `Timeout.readBytes`: the reader on bytes.

## Main results

* `Timeout.read?_eq_some_iff`: the forms that are read.
* `Timeout.not_spells_of_spellsSigned`: the exception is outside of the grammar.
* `Timeout.readBytes_eq`: the reader on bytes never cuts a character in two.
* `Timeout.readHeader?_eq_some_iff`: the entry of a header that counts.
* `Timeout.ofText_iff_spells_iff`: where the reader follows the grammar.
* `Timeout.ofText_eq_ok_iff_spells`: all of this together.
-/

namespace DocTree

open Text

/-! ### Numbers -/

theorem Text.readDigits?_eq_some_iff {text : List Char} {n : Nat} :
    readDigits? text = some n ↔
      text ≠ [] ∧ (∀ c ∈ text, c.isDigit) ∧ Nat.ofDigitChars 10 text 0 = n := by
  rw [readDigits?, Option.ite_none_right_eq_some, Option.some_inj]
  simp only [Bool.and_eq_true, Bool.not_eq_true', List.isEmpty_eq_false_iff, List.all_eq_true,
    and_assoc]

namespace Timeout

variable {timeout : Timeout} {word text : List Char} {count : UInt64}

/-- Decimal digits, at least one of them, stand for a number of seconds. -/
structure DenotesSeconds (digits : List Char) (count : UInt64) : Prop where
  /-- There are digits. -/
  ne_nil : digits ≠ []
  /-- There is nothing else. -/
  isDigit : ∀ c ∈ digits, c.isDigit
  /-- The number has 64 bits. -/
  value : Nat.ofDigitChars 10 digits 0 = count.toNat

theorem denotesSeconds_iff :
    DenotesSeconds text count ↔
      (match readDigits? text with
        | some n => if n < UInt64.size then some (UInt64.ofNat n) else none
        | none => none) = some count := by
  constructor
  · rintro ⟨hne, hdigits, hvalue⟩
    rw [readDigits?_eq_some_iff.2 ⟨hne, hdigits, hvalue⟩]
    simp [count.toNat_lt]
  · intro h
    split at h
    next n hread =>
      split at h
      next hlt =>
        cases h
        obtain ⟨hne, hdigits, hvalue⟩ := readDigits?_eq_some_iff.1 hread
        exact ⟨hne, hdigits, hvalue.trans (UInt64.toNat_ofNat_of_lt hlt).symm⟩
      next => cases h
    next => cases h

/-- There is no sign among digits. -/
theorem DenotesSeconds.ne_sign (h : DenotesSeconds text count) (digits : List Char) :
    text ≠ '+' :: digits := by
  rintro rfl
  exact absurd (h.isDigit '+' List.mem_cons_self) (by decide)

/-- A number of seconds is read from digits, or from a plus sign and digits. -/
theorem readSeconds?_eq_some_iff :
    readSeconds? text = some count ↔
      DenotesSeconds text count ∨ ∃ digits, text = '+' :: digits ∧ DenotesSeconds digits count := by
  unfold readSeconds?
  split
  next digits =>
    refine denotesSeconds_iff.symm.trans ⟨fun h => .inr ⟨digits, rfl, h⟩, ?_⟩
    rintro (h | ⟨_, heq, h⟩)
    · exact absurd rfl (h.ne_sign digits)
    · cases heq
      exact h
  next hsign =>
    refine denotesSeconds_iff.symm.trans ⟨.inl, ?_⟩
    rintro (h | ⟨digits, rfl, -⟩)
    · exact h
    · exact absurd rfl (hsign digits)

/-! ### The grammar -/

/-- A word is spelled with the given letters, any of which may be capitals. -/
def IsWord (letters word : List Char) : Prop :=
  List.Forall₂ (fun c letter => c = letter ∨ c = letter.toUpper) word letters

/-- How a timeout is written. -/
inductive Spells : Timeout → List Char → Prop where
  /-- The word for a lifetime without end. -/
  | infinite {word : List Char} (hword : IsWord infiniteWord word) : Spells .infinite word
  /-- The word for seconds, and digits. -/
  | seconds {word digits : List Char} {count : UInt64} (hword : IsWord secondsWord word)
      (hdigits : DenotesSeconds digits count) : Spells (.seconds count) (word ++ digits)

/-- The form with a plus sign before the digits. -/
inductive SpellsSigned : Timeout → List Char → Prop where
  /-- The word for seconds, a plus sign, and digits. -/
  | seconds {word digits : List Char} {count : UInt64} (hword : IsWord secondsWord word)
      (hdigits : DenotesSeconds digits count) :
      SpellsSigned (.seconds count) (word ++ '+' :: digits)

/-- A word is one of the forms that are read: one of the grammar, or the one with a plus sign. -/
def IsForm (timeout : Timeout) (word : List Char) : Prop :=
  Spells timeout word ∨ SpellsSigned timeout word

/-- A text without its blank ends is one of the forms that are read. -/
def Understood (timeout : Timeout) (text : List Char) : Prop :=
  ∃ word, Trims text word ∧ IsForm timeout word

theorem isWord_infiniteWord_iff : IsWord infiniteWord word ↔ lower word = infiniteWord :=
  (lower_eq_iff (by simp [infiniteWord])).symm

theorem isWord_secondsWord_iff : IsWord secondsWord word ↔ lower word = secondsWord :=
  (lower_eq_iff (by simp [secondsWord])).symm

/-- No text begins with the word for seconds if it is the word for a lifetime without end. -/
theorem lower_take_ne (h : lower word = infiniteWord) :
    lower (word.take secondsWord.length) ≠ secondsWord := by
  rw [lower, List.map_take, ← lower, h]
  decide

/-- What stands behind the word for seconds is found by the length of this word. -/
theorem exists_append_iff {P : List Char → Prop} :
    (∃ front back, IsWord secondsWord front ∧ P back ∧ word = front ++ back) ↔
      lower (word.take secondsWord.length) = secondsWord ∧ P (word.drop secondsWord.length) := by
  constructor
  · rintro ⟨front, back, hfront, hback, rfl⟩
    have hlength : front.length = secondsWord.length := List.Forall₂.length_eq hfront
    rw [List.take_left' hlength, List.drop_left' hlength]
    exact ⟨isWord_secondsWord_iff.1 hfront, hback⟩
  · rintro ⟨hfront, hback⟩
    exact ⟨_, _, isWord_secondsWord_iff.2 hfront, hback, (List.take_append_drop ..).symm⟩

theorem isForm_infinite_iff :
    IsForm .infinite word ↔ lower word = infiniteWord := by
  rw [← isWord_infiniteWord_iff]
  constructor
  · rintro (h | h)
    · cases h with
      | infinite hword => exact hword
    · cases h
  · exact fun hword => .inl (.infinite hword)

theorem isForm_seconds_iff :
    IsForm (.seconds count) word ↔
      lower (word.take secondsWord.length) = secondsWord ∧
        readSeconds? (word.drop secondsWord.length) = some count := by
  rw [← exists_append_iff (P := fun rest => readSeconds? rest = some count)]
  simp only [readSeconds?_eq_some_iff]
  constructor
  · rintro (h | h)
    · cases h with
      | seconds hword hdigits => exact ⟨_, _, hword, .inl hdigits, rfl⟩
    · cases h with
      | seconds hword hdigits => exact ⟨_, _, hword, .inr ⟨_, rfl, hdigits⟩, rfl⟩
  · rintro ⟨front, back, hword, hdigits | ⟨digits, rfl, hdigits⟩, rfl⟩
    · exact .inl (.seconds hword hdigits)
    · exact .inr (.seconds hword hdigits)

/-- The form with a plus sign is outside of the grammar. -/
theorem not_spells_of_spellsSigned {other : Timeout} (h : SpellsSigned timeout word) :
    ¬Spells other word := by
  cases h with
  | @seconds front digits count hfront hdigits =>
    intro hspells
    have hlower : lower ((front ++ '+' :: digits).take secondsWord.length) = secondsWord :=
      (exists_append_iff (P := fun _ => True)).1 ⟨front, _, hfront, trivial, rfl⟩ |>.1
    generalize hword : front ++ '+' :: digits = word at hspells hlower
    cases hspells with
    | infinite hinfinite => exact lower_take_ne (isWord_infiniteWord_iff.1 hinfinite) hlower
    | seconds hother hnumber =>
      -- Both words are as long as the word for seconds, so the number begins with the sign.
      have hlength := (List.Forall₂.length_eq hfront).trans (List.Forall₂.length_eq hother).symm
      exact hnumber.ne_sign digits (List.append_inj_right hword hlength).symm

/-! ### Reading -/

/-- A text is read if what is left of it without blank ends is one of the forms. -/
theorem read?_eq_some_iff : read? text = some timeout ↔ Understood timeout text := by
  have hunderstood : Understood timeout text ↔ IsForm timeout (trim text) := by
    simp only [Understood, trims_iff, exists_eq_left']
  rw [hunderstood]
  unfold read?
  dsimp only
  split
  next hinfinite =>
    cases timeout with
    | infinite => simp [isForm_infinite_iff, hinfinite]
    | seconds count => simp [isForm_seconds_iff, lower_take_ne hinfinite]
  next hinfinite =>
    split
    next hseconds =>
      cases timeout with
      | infinite => simp [isForm_infinite_iff, hinfinite]
      | seconds count => simp [isForm_seconds_iff, hseconds]
    next hseconds =>
      cases timeout with
      | infinite => simp [isForm_infinite_iff, hinfinite]
      | seconds count => simp [isForm_seconds_iff, hseconds]

theorem read?_eq_none_iff : read? text = none ↔ ∀ timeout, ¬Understood timeout text := by
  simp only [← read?_eq_some_iff, Option.eq_none_iff_forall_ne_some, ne_eq]

theorem ofText_eq_ok_iff {text : String} :
    ofText text = .ok timeout ↔ Understood timeout text.toList := by
  rw [ofText, ← read?_eq_some_iff]
  split
  next found hread => simp [hread]
  next hread => simp [hread]

/-- What is reported of a text that is not read is what is left of it without blank ends. -/
theorem ofText_eq_error_iff {text : String} {error : InvalidTimeout} :
    ofText text = .error error ↔
      (∀ timeout, ¬Understood timeout text.toList) ∧ Trims text.toList error.text.toList := by
  rw [ofText, ← read?_eq_none_iff, trims_iff]
  split
  next found hread => simp [hread]
  next hread =>
    obtain ⟨reported⟩ := error
    simp [hread, ← String.toList_inj]

/-- The reader on bytes. It looks at the first bytes of a text, as many as the word for seconds has,
and if they are this word then it goes on with what comes after them. -/
def readBytes (text : List Char) : Except BrokenCut (Option Timeout) :=
  let word := trim text
  if lower word = infiniteWord then .ok (some .infinite)
  else
    match (cutAt? secondsWord.length word).map Prod.fst with
    | some front =>
      if lower front = secondsWord then
        (dropBytes secondsWord.length word).map fun digits => (readSeconds? digits).map .seconds
      else .ok none
    | none => .ok none

/-- The reader on bytes never cuts a character in two, and it reads what the reader on characters
does. -/
theorem readBytes_eq (text : List Char) : readBytes text = .ok (read? text) := by
  unfold readBytes read?
  dsimp only
  generalize trim text = word
  have hascii : ∀ letter ∈ secondsWord, letter.toNat < 128 := by simp [secondsWord]
  split
  · rfl
  · by_cases hseconds : lower (word.take secondsWord.length) = secondsWord
    · -- The word for seconds has a byte for each of its characters.
      have hcut := cutAt?_of_lower_take hseconds hascii
      simp [dropBytes, hcut, hseconds, Except.map]
    · rw [if_neg hseconds]
      cases hcut : cutAt? secondsWord.length word with
      | none => rfl
      | some parts =>
        obtain ⟨front, back⟩ := parts
        obtain ⟨rfl, hwidth⟩ := cutAt?_eq_some_iff.1 hcut
        -- Nothing else is that word, even if it has as many bytes.
        have hother : lower front ≠ secondsWord := by
          intro hlower
          have hlength : front.length = secondsWord.length := by
            rw [← width_of_lower hlower hascii, hwidth]
          rw [List.take_left' hlength] at hseconds
          exact hseconds hlower
        simp [hother]

/-! ### Headers -/

/-- The first entry of a header that is read counts. -/
theorem readHeader?_eq_some_iff {header : List Char} :
    readHeader? header = some timeout ↔
      ∃ before entry after, header.splitOn ',' = before ++ entry :: after ∧
        Understood timeout entry ∧ ∀ other ∈ before, ∀ timeout, ¬Understood timeout other := by
  rw [readHeader?, List.findSome?_eq_some_iff]
  simp only [read?_eq_some_iff, read?_eq_none_iff]

theorem readHeader?_eq_none_iff {header : List Char} :
    readHeader? header = none ↔
      ∀ entry ∈ header.splitOn ',', ∀ timeout, ¬Understood timeout entry := by
  rw [readHeader?, List.findSome?_eq_none_iff]
  simp only [read?_eq_none_iff]

/-- The reader follows the grammar on a text unless a plus sign stands before the digits there. -/
theorem ofText_iff_spells_iff {text : String} :
    (∀ timeout, ofText text = .ok timeout ↔
        ∃ word, Trims text.toList word ∧ Spells timeout word) ↔
      ∀ timeout word, Trims text.toList word → ¬SpellsSigned timeout word := by
  constructor
  · intro h timeout word htrims hsigned
    have hread : ofText text = .ok timeout := ofText_eq_ok_iff.2 ⟨word, htrims, .inr hsigned⟩
    obtain ⟨other, hother, hspells⟩ := (h timeout).1 hread
    -- What is left without blank ends is one word only.
    have heq : word = other := (trims_iff.1 htrims).symm.trans (trims_iff.1 hother)
    exact not_spells_of_spellsSigned hsigned (heq ▸ hspells)
  · intro h timeout
    refine ofText_eq_ok_iff.trans (exists_congr fun word => and_congr_right fun htrims => ?_)
    exact or_iff_left (h timeout word htrims)

/-- What is read from a text is the timeout that it spells without its blank ends, possibly with a
plus sign before the digits, which is all that is against the grammar; nothing else is read, and
what is left without blank ends is reported then. Reading bytes gives the same and cuts no character
in two. In a header the first entry counts that is read, if there is any. -/
theorem ofText_eq_ok_iff_spells (text : String) (header : List Char) :
    ((∀ timeout, ofText text = .ok timeout ↔
        ∃ word, Trims text.toList word ∧ Spells timeout word) ↔
      ∀ timeout word, Trims text.toList word → ¬SpellsSigned timeout word) ∧
    (∀ timeout, ofText text = .ok timeout ↔
      ∃ word, Trims text.toList word ∧ (Spells timeout word ∨ SpellsSigned timeout word)) ∧
    (∀ error, ofText text = .error error ↔
      (∀ timeout, ¬Understood timeout text.toList) ∧ Trims text.toList error.text.toList) ∧
    readBytes text.toList = .ok (ofText text).toOption ∧
    (∀ timeout, readHeader? header = some timeout ↔
      ∃ before entry after, header.splitOn ',' = before ++ entry :: after ∧
        Understood timeout entry ∧ ∀ other ∈ before, ∀ timeout, ¬Understood timeout other) ∧
    (readHeader? header = none ↔
      ∀ entry ∈ header.splitOn ',', ∀ timeout, ¬Understood timeout entry) := by
  have hbytes : readBytes text.toList = .ok (ofText text).toOption := by
    rw [readBytes_eq, ofText]
    cases read? text.toList <;> rfl
  exact ⟨ofText_iff_spells_iff, fun _ => ofText_eq_ok_iff, fun _ => ofText_eq_error_iff, hbytes,
    fun _ => readHeader?_eq_some_iff, readHeader?_eq_none_iff⟩

/-- A plus sign before the digits is not refused. -/
theorem not_ofText_iff_spells :
    ¬∀ (text : String) timeout, ofText text = .ok timeout ↔
      ∃ word, Trims text.toList word ∧ Spells timeout word := by
  intro h
  have hread : ofText "Second-+5" = .ok (.seconds 5) := by decide +kernel
  obtain ⟨word, htrims, hspells⟩ := (h _ _).1 hread
  have hword : ['S', 'e', 'c', 'o', 'n', 'd', '-'] ++ '+' :: ['5'] = word := by
    rw [← trims_iff.1 htrims]
    decide +kernel
  have hsigned : SpellsSigned (.seconds 5) word := by
    rw [← hword]
    refine .seconds (isWord_secondsWord_iff.2 (by decide)) ⟨by decide, by simp, by decide⟩
  exact not_spells_of_spellsSigned hsigned hspells

end Timeout

end DocTree
