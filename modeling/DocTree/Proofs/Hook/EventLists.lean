import Mathlib.Data.List.TakeWhile
import DocTree.Event
import DocTree.Proofs.Text.Words

/-!
# Lists of event names

A text lists events by their names, in any mix of capital and small letters, with commas and blank
characters between them in any number, and possibly before and after them. Texts put side by side
with a separator between them list what they list on their own, one after the other. A text that
lists no events has a first word that is no name, and this word is what the reader reports.

## Main definitions

* `Event.names` and `Event.Spells`: the names of an event, and the ways to write one of them.
* `Event.Lists`: the texts that list some events.
* `Event.FirstUnknown`: the first word of a text that is no name.

## Main results

* `Text.pieces_append`: a word between separators is a piece of its own.
* `Event.readList_append`: both sides of a separator are read on their own.
* `Event.lists_or_firstUnknown`: every text lists events or has an unknown word.
* `Event.readList_eq_ok_iff` and `Event.readList_eq_error_iff`: what is read from a text, and what
  is reported.
-/

namespace DocTree

/-! ### Words -/

namespace Text

variable {isSeparator : Char → Bool} {text : List Char}

/-- There are no pieces in a gap. -/
theorem pieces_eq_nil (h : ∀ c ∈ text, isSeparator c) : pieces isSeparator text = [] := by
  induction text with
  | nil => simp [pieces]
  | cons s rest ih =>
    rw [List.forall_mem_cons] at h
    have hsplit := pieces_append_cons isSeparator [] rest h.1
    rw [List.nil_append, ih h.2] at hsplit
    simpa [pieces] using hsplit

/-- A word with separators, or the ends of the text, on its two sides is a piece of its own. -/
theorem pieces_append {before piece after : List Char}
    (hbefore : ∀ c ∈ before.getLast?, isSeparator c) (hpiece : piece ≠ [])
    (hfree : ∀ c ∈ piece, isSeparator c = false) (hafter : ∀ c ∈ after.head?, isSeparator c) :
    pieces isSeparator (before ++ piece ++ after) =
      pieces isSeparator before ++ piece :: pieces isSeparator after := by
  -- What follows the word begins with a separator, if there is anything.
  have htail : pieces isSeparator (piece ++ after) = piece :: pieces isSeparator after := by
    have hword := pieces_eq_singleton hpiece hfree
    cases after with
    | nil => simpa [pieces] using hword
    | cons s rest =>
      have hs : isSeparator s := hafter s rfl
      have hrest := pieces_append_cons isSeparator [] rest hs
      rw [List.nil_append] at hrest
      rw [pieces_append_cons isSeparator piece rest hs, hword, hrest]
      simp [pieces]
  obtain rfl | ⟨front, s, rfl⟩ := before.eq_nil_or_concat
  · rw [List.nil_append, htail]
    simp [pieces]
  · rw [List.concat_eq_append] at hbefore ⊢
    have hs : isSeparator s := hbefore s (by simp)
    have hfront := pieces_append_cons isSeparator front [] hs
    rw [List.append_assoc, List.append_assoc, List.singleton_append,
      pieces_append_cons isSeparator front _ hs, htail, hfront]
    simp [pieces]

/-- A text is a gap, or begins with a gap and a word. -/
theorem exists_word (isSeparator : Char → Bool) (text : List Char) :
    (∀ c ∈ text, isSeparator c) ∨
      ∃ gap word rest, text = gap ++ word ++ rest ∧ (∀ c ∈ gap, isSeparator c) ∧ word ≠ [] ∧
        (∀ c ∈ word, isSeparator c = false) ∧ ∀ c ∈ rest.head?, isSeparator c := by
  cases hbody : text.dropWhile isSeparator with
  | nil => exact .inl (List.dropWhile_eq_nil_iff.1 hbody)
  | cons first more =>
    -- The gap ends where the first character is not a separator.
    have hfirst : isSeparator first = false := by
      have hhead := List.head?_dropWhile_not isSeparator text
      rwa [hbody] at hhead
    refine .inr ⟨text.takeWhile isSeparator, (first :: more).takeWhile fun c => !isSeparator c,
      (first :: more).dropWhile fun c => !isSeparator c, ?_, ?_, ?_, ?_, ?_⟩
    · rw [List.append_assoc, List.takeWhile_append_dropWhile, ← hbody,
        List.takeWhile_append_dropWhile]
    · exact fun c hc => List.mem_takeWhile_imp hc
    · simp [hfirst]
    · intro c hc
      simpa using List.mem_takeWhile_imp hc
    · intro c hc
      have hhead := List.head?_dropWhile_not (fun c => !isSeparator c) (first :: more)
      rw [Option.mem_def.1 hc] at hhead
      simpa using hhead

end Text

namespace Event

variable {event : Event} {word text : List Char}

/-! ### Names -/

/-- The names of an event: its own, and an older one that some events have. -/
def names (event : Event) : List String :=
  event.name :: (legacyNames.filter fun legacy => legacy.2 = event).map Prod.fst

/-- A word is a name of the event, written with any of its letters as capitals. -/
def Spells (event : Event) (word : List Char) : Prop :=
  ∃ name ∈ event.names,
    List.Forall₂ (fun c letter => c = letter ∨ c = letter.toUpper) word name.toList

/-- Names have neither capitals nor separators in them, not even if they are written in capitals. -/
theorem isSeparator_of_mem_name {name : String} (hname : name ∈ event.names) :
    ∀ letter ∈ name.toList, letter.isUpper = false ∧ isSeparator letter = false ∧
      isSeparator letter.toUpper = false := by
  have hall : ∀ event ∈ all, event.names.all fun name => name.toList.all fun letter =>
      !letter.isUpper && !isSeparator letter && !isSeparator letter.toUpper := by
    decide +kernel
  intro letter hletter
  have hname := List.all_eq_true.1 (hall event (mem_all event)) name hname
  have hletter := List.all_eq_true.1 hname letter hletter
  simpa [and_assoc] using hletter

theorem ofName?_eq_some_iff {name : List Char} :
    ofName? name = some event ↔ ∃ own ∈ event.names, own.toList = name := by
  constructor
  · intro h
    unfold ofName? at h
    split at h
    next legacy hfound =>
      cases h
      have hlegacy : legacy.1 ∈ legacy.2.names := by
        refine List.mem_cons_of_mem _ (List.mem_map.2 ⟨legacy, ?_, rfl⟩)
        exact List.mem_filter.2 ⟨List.mem_of_find?_eq_some hfound, by simp⟩
      exact ⟨legacy.1, hlegacy, by simpa using List.find?_some hfound⟩
    next => exact ⟨event.name, List.mem_cons_self, by simpa using List.find?_some h⟩
  · -- No two events share a name.
    have hall : ∀ event ∈ all, ∀ own ∈ event.names, ofName? own.toList = some event := by
      decide +kernel
    rintro ⟨own, hown, rfl⟩
    exact hall event (mem_all event) own hown

theorem ofName?_lower_eq_some_iff : ofName? (Text.lower word) = some event ↔ event.Spells word := by
  rw [ofName?_eq_some_iff]
  refine exists_congr fun own => and_congr_right fun hown => ?_
  rw [eq_comm]
  exact Text.lower_eq_iff fun letter hletter => (isSeparator_of_mem_name hown letter hletter).1

theorem Spells.ne_nil (h : event.Spells word) : word ≠ [] := by
  have hall : ∀ event ∈ all, ∀ name ∈ event.names, name.toList ≠ [] := by decide +kernel
  obtain ⟨name, hname, hspelt⟩ := h
  rintro rfl
  exact hall event (mem_all event) name hname (List.forall₂_nil_left_iff.1 hspelt)

/-- There are no separators in a name, however it is written. -/
theorem Spells.isSeparator_eq_false (h : event.Spells word) :
    ∀ c ∈ word, isSeparator c = false := by
  obtain ⟨name, hname, hspelt⟩ := h
  have hfree := isSeparator_of_mem_name hname
  generalize name.toList = letters at hspelt hfree
  induction hspelt with
  | nil => exact nofun
  | cons hfirst _ ih =>
    rw [List.forall_mem_cons] at hfree
    refine List.forall_mem_cons.2 ⟨?_, ih hfree.2⟩
    rcases hfirst with rfl | rfl
    · exact hfree.1.2.1
    · exact hfree.1.2.2

/-! ### One word -/

/-- Nothing is cut off a word. -/
theorem trim_of_free (hfree : ∀ c ∈ word, isSeparator c = false) : Text.trim word = word := by
  have hblank : ∀ c ∈ word, Text.isBlank c = false :=
    fun c hc => (Bool.or_eq_false_iff.1 (hfree c hc)).2
  exact Text.trim_eq_self (fun c hc => hblank c (List.mem_of_head? hc))
    fun c hc => hblank c (List.mem_of_getLast? hc)

theorem read_of_spells (h : event.Spells word) : read word = .ok event := by
  unfold read
  rw [trim_of_free h.isSeparator_eq_false]
  dsimp only
  rw [ofName?_lower_eq_some_iff.2 h]

/-- A word that is no name is reported as it is written. -/
theorem read_of_unknown (hfree : ∀ c ∈ word, isSeparator c = false)
    (hunknown : ∀ event : Event, ¬event.Spells word) : read word = .error word := by
  unfold read
  rw [trim_of_free hfree]
  dsimp only
  split
  next event hname => exact absurd (ofName?_lower_eq_some_iff.1 hname) (hunknown event)
  next => rfl

/-! ### Lists -/

/-- A text lists events: it consists of their names, of separators between any two of them, and
possibly of separators before the first and after the last. -/
inductive Lists : List Char → List Event → Prop where
  /-- No event is listed by separators. -/
  | nothing {gap : List Char} (hgap : ∀ c ∈ gap, isSeparator c) : Lists gap []
  /-- The text ends with the name of an event. -/
  | last {gap word : List Char} {event : Event} (hgap : ∀ c ∈ gap, isSeparator c)
      (hword : event.Spells word) : Lists (gap ++ word) [event]
  /-- A separator follows the name of an event, and then the list goes on. -/
  | next {gap word rest : List Char} {s : Char} {event : Event} {events : List Event}
      (hgap : ∀ c ∈ gap, isSeparator c) (hword : event.Spells word) (hs : isSeparator s)
      (hrest : Lists rest events) : Lists (gap ++ word ++ s :: rest) (event :: events)

/-- A text has a word, between separators or the ends of the text, that is not the name of an event,
and what comes before this word lists events. -/
inductive FirstUnknown : List Char → List Char → Prop where
  /-- The word stands between two parts of the text. -/
  | between {before word after : List Char} {events : List Event} (hbefore : Lists before events)
      (hstart : ∀ c ∈ before.getLast?, isSeparator c) (hend : ∀ c ∈ after.head?, isSeparator c)
      (hne : word ≠ []) (hfree : ∀ c ∈ word, isSeparator c = false)
      (hunknown : ∀ event : Event, ¬event.Spells word) :
      FirstUnknown (before ++ word ++ after) word

/-- Both sides of a separator are read on their own, the left one first. -/
theorem readList_append (front back : List Char) {s : Char} (hs : isSeparator s) :
    readList (front ++ s :: back) =
      match readList front, readList back with
      | .ok events, .ok others => .ok (events ++ others)
      | .ok _, .error word => .error word
      | .error word, _ => .error word := by
  -- Pieces on the left come before those on the right, and the first error ends the reading.
  rw [readList, Text.pieces_append_cons _ _ _ hs, List.mapM_append]
  change (do let events ← readList front; let others ← readList back; pure (events ++ others)) = _
  cases readList front with
  | error word => rfl
  | ok events => cases readList back <;> rfl

/-- Separators before a text do not matter, and a word at its beginning is read first. -/
theorem readList_word {gap rest : List Char} (hgap : ∀ c ∈ gap, isSeparator c)
    (hword : event.Spells word) (hrest : ∀ c ∈ rest.head?, isSeparator c) :
    readList (gap ++ word ++ rest) = (readList rest).map (event :: ·) := by
  have hstart : ∀ c ∈ gap.getLast?, isSeparator c := fun c hc => hgap c (List.mem_of_getLast? hc)
  rw [readList, Text.pieces_append hstart hword.ne_nil hword.isSeparator_eq_false hrest,
    Text.pieces_eq_nil hgap, List.nil_append, List.mapM_cons, read_of_spells hword]
  change (do let events ← readList rest; pure (event :: events)) = _
  cases readList rest <;> rfl

/-- A text that lists events is read as their list. -/
theorem Lists.readList {events : List Event} (h : Lists text events) :
    readList text = .ok events := by
  induction h with
  | nothing hgap =>
    rw [Event.readList, Text.pieces_eq_nil hgap]
    rfl
  | last hgap hword =>
    have hread := readList_word hgap hword (by simp : ∀ c ∈ [].head?, isSeparator c)
    rwa [List.append_nil] at hread
  | @next gap word rest s event events hgap hword hs _ ih =>
    -- The separator before the rest of the text changes nothing about it.
    have hrest : Event.readList (s :: rest) = .ok events := by
      have hread := readList_append [] rest hs
      rw [ih] at hread
      exact hread
    rw [readList_word hgap hword (by simpa using hs), hrest]
    rfl

/-- The first unknown word of a text is reported. -/
theorem FirstUnknown.readList (h : FirstUnknown text word) : readList text = .error word := by
  cases h with
  | @between before word after events hbefore hstart hend hne hfree hunknown =>
    have hread : (Text.pieces isSeparator before).mapM read = .ok events := hbefore.readList
    rw [Event.readList, Text.pieces_append hstart hne hfree hend, List.mapM_append, hread,
      List.mapM_cons, read_of_unknown hfree hunknown]
    rfl

/-- What is unknown after a separator is unknown after further names. -/
theorem FirstUnknown.next {gap rest : List Char} {s : Char} {unknown : List Char}
    (hgap : ∀ c ∈ gap, isSeparator c) (hword : event.Spells word) (hs : isSeparator s)
    (h : FirstUnknown rest unknown) : FirstUnknown (gap ++ word ++ s :: rest) unknown := by
  cases h with
  | @between before unknown after events hbefore hstart hend hne hfree hunknown =>
    have hlists : Lists (gap ++ word ++ s :: before) (event :: events) :=
      .next hgap hword hs hbefore
    -- What stands before the unknown word still ends with a separator.
    have hlast : ∀ c ∈ (gap ++ word ++ s :: before).getLast?, isSeparator c := by
      intro c hc
      rw [List.getLast?_append, List.getLast?_cons, Option.some_or] at hc
      obtain rfl := Option.some.inj hc
      cases hend : before.getLast? with
      | none => exact hs
      | some other => exact hstart other hend
    simpa using FirstUnknown.between hlists hlast hend hne hfree hunknown

/-- Every text lists events or has a first unknown word. -/
theorem lists_or_firstUnknown (text : List Char) :
    (∃ events, Lists text events) ∨ ∃ word, FirstUnknown text word := by
  -- Induction on the length, since what follows the first word and a separator is shorter.
  induction hn : text.length using Nat.strong_induction_on generalizing text with
  | _ n ih =>
    obtain hgap | ⟨gap, word, rest, rfl, hgap, hne, hfree, hrest⟩ :=
      Text.exists_word isSeparator text
    · exact .inl ⟨[], .nothing hgap⟩
    by_cases hknown : ∃ event : Event, event.Spells word
    · obtain ⟨event, hword⟩ := hknown
      cases rest with
      | nil => exact .inl ⟨[event], by simpa using Lists.last hgap hword⟩
      | cons s rest =>
        have hs : isSeparator s := hrest s rfl
        have hshorter : rest.length < n := by
          simp at hn
          omega
        obtain ⟨events, hlists⟩ | ⟨unknown, hfirst⟩ := ih rest.length hshorter rest rfl
        · exact .inl ⟨event :: events, .next hgap hword hs hlists⟩
        · exact .inr ⟨unknown, .next hgap hword hs hfirst⟩
    · -- The first word is unknown, and there is only a gap before it.
      refine .inr ⟨word, .between (.nothing hgap) ?_ hrest hne hfree (not_exists.1 hknown)⟩
      exact fun c hc => hgap c (List.mem_of_getLast? hc)

/-- A text is read as the list of the events that it lists. -/
theorem readList_eq_ok_iff {events : List Event} :
    readList text = .ok events ↔ Lists text events := by
  refine ⟨fun h => ?_, Lists.readList⟩
  -- A text without an unknown word lists some events, which are then those that were read.
  obtain ⟨others, hlists⟩ | ⟨word, hfirst⟩ := lists_or_firstUnknown text
  · have hread := hlists.readList
    rw [h] at hread
    cases hread
    exact hlists
  · rw [hfirst.readList] at h
    cases h

/-- What is reported of a text is its first unknown word. -/
theorem readList_eq_error_iff : readList text = .error word ↔ FirstUnknown text word := by
  refine ⟨fun h => ?_, FirstUnknown.readList⟩
  obtain ⟨events, hlists⟩ | ⟨other, hfirst⟩ := lists_or_firstUnknown text
  · rw [hlists.readList] at h
    cases h
  · have hread := hfirst.readList
    rw [h] at hread
    cases hread
    exact hfirst

/-- Both sides of a separator are read on their own, and the error on the left comes first. What is
read from a text are the events that it lists, and what is reported is its first unknown word, as it
is written there. -/
theorem readList_eq_iff_lists :
    (∀ (front back : List Char) (s : Char), isSeparator s →
      readList (front ++ s :: back) =
        match readList front, readList back with
        | .ok events, .ok others => .ok (events ++ others)
        | .ok _, .error word => .error word
        | .error word, _ => .error word) ∧
    (∀ text events, readList text = .ok events ↔ Lists text events) ∧
    ∀ text word, readList text = .error word ↔ FirstUnknown text word :=
  ⟨fun front back _ hs => readList_append front back hs, fun _ _ => readList_eq_ok_iff,
    fun _ _ => readList_eq_error_iff⟩

/-- Two creations in different words on one side of a wide blank, a word that is no name on the
other. -/
theorem readList_eq_iff_lists_mixed :
    let front := "STORE,,\tCreate-Document,".toList
    let back := "remove Explode store".toList
    isSeparator '\u3000' ∧ readList front = .ok [createDocument, createDocument] ∧
      readList back = .error "Explode".toList ∧
      readList (front ++ '\u3000' :: back) = .error "Explode".toList ∧
      Lists front [createDocument, createDocument] ∧
      FirstUnknown (front ++ '\u3000' :: back) "Explode".toList := by
  intro front back
  obtain ⟨happend, hlists, hfirst⟩ := readList_eq_iff_lists
  have hs : isSeparator '\u3000' := by decide
  have hfront : readList front = .ok [createDocument, createDocument] := by decide +kernel
  have hback : readList back = .error "Explode".toList := by decide +kernel
  have hboth : readList (front ++ '\u3000' :: back) = .error "Explode".toList := by
    rw [happend front back '\u3000' hs, hfront, hback]
  exact ⟨hs, hfront, hback, hboth, (hlists _ _).1 hfront, (hfirst _ _).1 hboth⟩

end Event

end DocTree
