import DocTree.Path.Basic

/-!
# Paths as lists of segments

The operations on paths work on texts. This module says what each of them does to the list of
segments, so that nothing after it has to look at texts again.

## Main results

* `Path.chars_eq_flatMap`: the text of a path is a slash before each of its segments.
* `Path.segments_append` and `Path.child?_eq_some_iff`: extending a path extends its segments.
* `Path.segments_eq_append_name` and `Path.parent?_eq_none_iff`: the parent drops the last segment.
* `Path.startsWith_iff_segments`: to start with a path is to have its segments as a prefix.
* `Path.stripAncestor?_eq_some_iff`: what is left of a path below an ancestor.
* `Path.relocate?_eq_some_iff`: moving a path to another place keeps what follows the old one.
* `Path.mem_ancestors_iff`: the ancestors of a path are the paths that it starts with.
-/

namespace DocTree.Path

/-! ### Text and segments -/

/-- A non-empty list of segments, written with a slash before each of them. -/
theorem textOf_eq_flatMap {segments : List (List Char)} (hne : segments ≠ []) :
    textOf segments = segments.flatMap ('/' :: ·) := by
  induction segments with
  | nil => exact absurd rfl hne
  | cons first rest ih =>
    cases rest with
    | nil => simp [textOf]
    | cons second others =>
      have hrest : textOf (second :: others) = (second :: others).flatMap ('/' :: ·) :=
        ih (by simp)
      rw [List.flatMap_cons, ← hrest, textOf, textOf, List.intercalate_cons_cons]
      simp

/-- The text of a path is a slash before each of its segments. -/
theorem chars_eq_flatMap (p : Path) : p.chars = p.segments.flatMap ('/' :: ·) := by
  rw [← textOf_eq_flatMap p.segments_ne_nil, textOf_segments]

/-- A path whose text is a slash before each of some valid segments has these segments. -/
theorem segments_eq_of_chars_eq {p : Path} {segments : List (List Char)} (hne : segments ≠ [])
    (hvalid : ∀ segment ∈ segments, IsSegment segment)
    (h : p.chars = segments.flatMap ('/' :: ·)) : p.segments = segments := by
  have hp : p = ofSegments segments hne hvalid := by
    apply ext
    rw [h, ← textOf_eq_flatMap hne]
    rfl
  rw [hp, segments_ofSegments]

/-! ### Extending a path -/

/-- The segments of `b` come after those of `a`. -/
@[simp]
theorem segments_append (a b : Path) : (a.append b).segments = a.segments ++ b.segments := by
  apply segments_eq_of_chars_eq
  · simp [a.segments_ne_nil]
  · intro segment h
    exact (List.mem_append.1 h).elim isSegment_of_mem_segments isSegment_of_mem_segments
  · rw [List.flatMap_append, ← chars_eq_flatMap, ← chars_eq_flatMap]
    rfl

/-- A path extended by a segment has that segment after its own. -/
theorem child?_eq_some_iff {p child : Path} {segment : List Char} :
    p.child? segment = some child ↔
      IsSegment segment ∧ child.segments = p.segments ++ [segment] := by
  unfold child?
  split
  next hsegment =>
    -- A path is determined by its text, and its text by its segments.
    have hchild : ∀ q : Path, q.chars = p.chars ++ '/' :: segment →
        q.segments = p.segments ++ [segment] := by
      intro q hq
      apply segments_eq_of_chars_eq
      · simp
      · intro s hs
        rcases List.mem_append.1 hs with hs | hs
        · exact isSegment_of_mem_segments hs
        · rwa [List.mem_singleton.1 hs]
      · rw [hq, List.flatMap_append, ← chars_eq_flatMap]
        simp
    constructor
    · intro h
      cases h
      exact ⟨hsegment, hchild _ rfl⟩
    · rintro ⟨-, h⟩
      rw [Option.some.injEq]
      apply segments_injective
      rw [hchild _ rfl, h]
  next hsegment => simp [hsegment]

/-! ### The parent -/

theorem segments_eq_name {p : Path} (h : p.parentChars = []) : p.segments = [p.name] := by
  have hchars : '/' :: p.name = p.chars := by simpa [h] using p.parentChars_append_name
  rw [segments, ← hchars, List.tail_cons]
  exact List.splitOn_eq_singleton p.slash_notMem_name

/-- The segments of a path are those of its parent and then its name. -/
theorem segments_eq_append_name {p parent : Path} (h : p.parent? = some parent) :
    p.segments = parent.segments ++ [p.name] := by
  have hchars : parent.chars = p.parentChars := by
    unfold parent? at h
    split at h
    · cases h
    · cases h
      rfl
  obtain ⟨body, hbody, -⟩ := parent.exists_body
  rw [segments, segments, ← p.parentChars_append_name, ← hchars, hbody, List.cons_append,
    List.tail_cons, List.tail_cons, List.splitOn_append_cons_self,
    List.splitOn_eq_singleton p.slash_notMem_name]

/-- The parent of a path has one segment less. -/
theorem length_segments_of_parent? {p parent : Path} (h : p.parent? = some parent) :
    p.segments.length = parent.segments.length + 1 := by
  rw [segments_eq_append_name h, List.length_append, List.length_singleton]

/-- A path has no parent exactly if its name is its only segment. -/
theorem parent?_eq_none_iff {p : Path} : p.parent? = none ↔ p.segments = [p.name] := by
  constructor
  · intro h
    unfold parent? at h
    split at h
    next hempty => exact segments_eq_name hempty
    · cases h
  · intro h
    -- A parent would have a segment of its own.
    cases hp : p.parent? with
    | none => rfl
    | some parent =>
      have hlength := length_segments_of_parent? hp
      have hpos := List.length_pos_iff.2 parent.segments_ne_nil
      rw [h, List.length_singleton] at hlength
      omega

/-- The name of a path is its last segment. -/
theorem getLast?_segments (p : Path) : p.segments.getLast? = some p.name := by
  cases h : p.parent? with
  | none => rw [parent?_eq_none_iff.1 h]; rfl
  | some parent => rw [segments_eq_append_name h, List.getLast?_concat]

theorem name_eq_of_segments {p : Path} {front : List (List Char)} {last : List Char}
    (h : p.segments = front ++ [last]) : p.name = last := by
  have hlast := p.getLast?_segments
  rw [h, List.getLast?_concat] at hlast
  exact (Option.some.inj hlast).symm

/-- The parent of a path extended by a segment is that path. -/
theorem parent?_eq_some_of_segments {p q : Path} {segment : List Char}
    (h : p.segments = q.segments ++ [segment]) : p.parent? = some q := by
  cases hp : p.parent? with
  | none =>
    have hpos := List.length_pos_iff.2 q.segments_ne_nil
    have hlength := congrArg List.length h
    rw [parent?_eq_none_iff.1 hp, List.length_append, List.length_singleton,
      List.length_singleton] at hlength
    omega
  | some parent =>
    have hcut := segments_eq_append_name hp
    rw [h] at hcut
    rw [Option.some.injEq]
    exact (segments_injective (List.append_inj_left' hcut rfl)).symm

/-! ### Paths above and below one another -/

/-- The text of a path after that of an ancestor is empty, or starts with a slash. -/
theorem startsWith_iff_chars {p a : Path} :
    p.startsWith a ↔ p = a ∨ ∃ rest, p.chars = a.chars ++ '/' :: rest := by
  unfold startsWith rest?
  constructor
  · intro h
    split at h
    next hrest => exact .inl (ext (by simpa using textAfter?_eq_some_iff.1 hrest))
    next c rest hrest =>
      have hc : c = '/' := by simpa using h
      exact .inr ⟨rest, hc ▸ textAfter?_eq_some_iff.1 hrest⟩
    · cases h
  · rintro (rfl | ⟨rest, h⟩)
    · rw [textAfter?_eq_some_iff.2 (List.append_nil _).symm]
    · rw [textAfter?_eq_some_iff.2 h]
      rfl

/-- What is left of a path below an ancestor, appended to the ancestor, is the path. -/
theorem stripAncestor?_eq_some_iff {p a rest : Path} :
    p.stripAncestor? a = some rest ↔ p = a.append rest := by
  unfold stripAncestor?
  constructor
  · intro h
    split at h
    next text htext =>
      cases h
      exact ext (chars_eq_of_rest? htext)
    · cases h
  · intro h
    -- The text that is left begins with the slash of the rest.
    obtain ⟨body, hbody, -⟩ := rest.exists_body
    have hrest : p.rest? a = some ('/' :: body) :=
      textAfter?_eq_some_iff.2 (by rw [h, ← hbody]; rfl)
    split
    next text htext =>
      rw [Option.some.injEq]
      apply ext
      rw [hbody]
      exact Option.some.inj (htext.symm.trans hrest)
    next hno => exact absurd hrest (hno body)

/-- A path starts with another exactly if the segments of that one are a prefix of its own. -/
theorem startsWith_iff_segments {p a : Path} : p.startsWith a ↔ a.segments <+: p.segments := by
  rw [startsWith_iff_chars]
  constructor
  · rintro (rfl | ⟨rest, h⟩)
    · exact List.prefix_rfl
    · have hrest : p.rest? a = some ('/' :: rest) := textAfter?_eq_some_iff.2 h
      have hp : p = a.append ⟨'/' :: rest, isWellFormed_of_rest? hrest⟩ := ext h
      rw [hp, segments_append]
      exact List.prefix_append ..
  · rintro ⟨tail, h⟩
    -- Segments that are left give text that begins with a slash.
    cases tail with
    | nil => exact .inl (segments_injective (by simpa using h.symm))
    | cons first others =>
      refine .inr ⟨first ++ others.flatMap ('/' :: ·), ?_⟩
      rw [p.chars_eq_flatMap, ← h, List.flatMap_append, ← chars_eq_flatMap]
      rfl

/-- Every path starts with itself. -/
@[simp]
theorem startsWith_self (p : Path) : p.startsWith p :=
  startsWith_iff_segments.2 List.prefix_rfl

/-- A path that starts with a second starts with all that the second starts with. -/
theorem startsWith_trans {a b c : Path} (hab : a.startsWith b) (hbc : b.startsWith c) :
    a.startsWith c :=
  startsWith_iff_segments.2
    ((startsWith_iff_segments.1 hbc).trans (startsWith_iff_segments.1 hab))

/-- Appending a path below another leads below it. -/
theorem startsWith_append (a b : Path) : (a.append b).startsWith a :=
  startsWith_iff_segments.2 (by rw [segments_append]; exact List.prefix_append ..)

/-- What starts like a path below another, and is not at or above the other, lies below it. -/
theorem exists_append_of_prefix {p a : Path} {rest : List (List Char)}
    (h : p.segments <+: a.segments ++ rest) (habove : ¬a.startsWith p) :
    ∃ below, p = a.append below ∧ below.segments <+: rest := by
  rw [startsWith_iff_segments] at habove
  have hcomparable := List.prefix_or_prefix_of_prefix h (List.prefix_append ..)
  obtain ⟨tail, htail⟩ := hcomparable.resolve_left habove
  have hne : tail ≠ [] := by
    rintro rfl
    exact habove (by rw [← htail]; simp)
  have hvalid : ∀ segment ∈ tail, IsSegment segment := fun segment hsegment =>
    isSegment_of_mem_segments (htail ▸ List.mem_append_right _ hsegment)
  refine ⟨ofSegments tail hne hvalid, segments_injective ?_, ?_⟩
  · rw [segments_append, segments_ofSegments, htail]
  · rw [segments_ofSegments]
    rwa [← htail, List.prefix_append_right_inj] at h

/-- Every path starts with its parent. -/
theorem startsWith_parent {p parent : Path} (h : p.parent? = some parent) :
    p.startsWith parent :=
  startsWith_iff_segments.2 (by rw [segments_eq_append_name h]; exact List.prefix_append ..)

/-- A parent lies above its child, not at or below it. -/
theorem not_startsWith_of_parent? {p parent : Path} (h : p.parent? = some parent) :
    ¬parent.startsWith p := by
  intro hbelow
  have hlength := (startsWith_iff_segments.1 hbelow).length_le
  rw [length_segments_of_parent? h] at hlength
  omega

theorem ne_of_parent? {p parent : Path} (h : p.parent? = some parent) : parent ≠ p := by
  rintro rfl
  exact not_startsWith_of_parent? h (startsWith_self _)

/-- Of two paths that a third one starts with, one starts with the other. -/
theorem startsWith_or_startsWith {p a b : Path} (ha : p.startsWith a) (hb : p.startsWith b) :
    a.startsWith b ∨ b.startsWith a := by
  rw [startsWith_iff_segments] at ha hb
  rcases Nat.le_total a.segments.length b.segments.length with hle | hle
  · exact .inr (startsWith_iff_segments.2 (List.prefix_of_prefix_length_le ha hb hle))
  · exact .inl (startsWith_iff_segments.2 (List.prefix_of_prefix_length_le hb ha hle))

/-- What is relocated lies at or below the new place. -/
theorem startsWith_of_relocate? {p old new q : Path} (h : p.relocate? old new = some q) :
    q.startsWith new := by
  unfold relocate? at h
  split at h
  · cases h
    exact startsWith_self _
  · obtain ⟨rest, -, rfl⟩ := Option.map_eq_some_iff.1 h
    exact startsWith_append ..

/-- A relocated path keeps the segments that follow those of the old place. -/
theorem relocate?_eq_some_iff {p old new q : Path} :
    p.relocate? old new = some q ↔
      ∃ tail, p.segments = old.segments ++ tail ∧ q.segments = new.segments ++ tail := by
  unfold relocate?
  constructor
  · intro h
    split at h
    next heq =>
      cases h
      exact ⟨[], by simp [heq], by simp⟩
    next =>
      obtain ⟨rest, hrest, rfl⟩ := Option.map_eq_some_iff.1 h
      refine ⟨rest.segments, ?_, segments_append new rest⟩
      rw [stripAncestor?_eq_some_iff.1 hrest, segments_append]
  · rintro ⟨tail, hp, hq⟩
    by_cases htail : tail = []
    · subst htail
      rw [List.append_nil] at hp hq
      rw [if_pos (segments_injective hp), segments_injective hq]
    · -- What follows the old place is the text of a path, too.
      have hvalid : ∀ segment ∈ tail, IsSegment segment := fun segment h =>
        isSegment_of_mem_segments (p := p) (hp ▸ List.mem_append_right _ h)
      have hne : p ≠ old := by
        rintro rfl
        exact htail (by simpa using hp)
      have hstrip : p.stripAncestor? old = some (ofSegments tail htail hvalid) :=
        stripAncestor?_eq_some_iff.2 (segments_injective (by
          rw [segments_append, segments_ofSegments, hp]))
      rw [if_neg hne, hstrip, Option.map_some, Option.some.injEq]
      exact segments_injective (by rw [segments_append, segments_ofSegments, hq])

/-- The old place itself is relocated to the new one. -/
theorem relocate?_self (old new : Path) : old.relocate? old new = some new :=
  if_pos rfl

/-- What is relocated to a new place is relocated from there to the old place. -/
theorem relocate?_comm {p old new q : Path} :
    p.relocate? old new = some q ↔ q.relocate? new old = some p := by
  rw [relocate?_eq_some_iff, relocate?_eq_some_iff]
  exact exists_congr fun tail => and_comm

theorem startsWith_of_relocate?_old {p old new q : Path} (h : p.relocate? old new = some q) :
    p.startsWith old :=
  startsWith_of_relocate? (relocate?_comm.1 h)

/-- Whatever lies at or below the old place can be relocated. -/
theorem exists_relocate? {p old : Path} (h : p.startsWith old) (new : Path) :
    ∃ q, p.relocate? old new = some q := by
  obtain ⟨tail, htail⟩ := startsWith_iff_segments.1 h
  have hvalid : ∀ segment ∈ new.segments ++ tail, IsSegment segment := by
    intro segment hmem
    rcases List.mem_append.1 hmem with hmem | hmem
    · exact isSegment_of_mem_segments hmem
    · exact isSegment_of_mem_segments (p := p) (htail ▸ List.mem_append_right _ hmem)
  refine ⟨ofSegments (new.segments ++ tail) (by simp [new.segments_ne_nil]) hvalid, ?_⟩
  exact relocate?_eq_some_iff.2 ⟨tail, htail.symm, segments_ofSegments _ hvalid⟩

/-- A path strictly below another has a parent, which lies at or below that one as well. -/
theorem exists_parent?_of_startsWith {p a : Path} (h : p.startsWith a) (hne : p ≠ a) :
    ∃ parent, p.parent? = some parent ∧ parent.startsWith a := by
  have hstart := startsWith_iff_segments.1 h
  cases hp : p.parent? with
  | none =>
    -- A path of one segment lies below no other.
    refine absurd (segments_injective ?_) hne
    refine (hstart.eq_of_length_le ?_).symm
    rw [parent?_eq_none_iff.1 hp]
    exact List.length_pos_iff.2 a.segments_ne_nil
  | some parent =>
    refine ⟨parent, rfl, startsWith_iff_segments.2 ?_⟩
    rw [segments_eq_append_name hp, List.prefix_concat_iff] at hstart
    refine hstart.resolve_left fun heq => hne ?_
    exact segments_injective ((segments_eq_append_name hp).trans heq.symm)

/-- The parent of what is relocated strictly below a new place is relocated with it. -/
theorem parent?_of_relocate? {p old new q parent : Path} (h : p.relocate? old new = some q)
    (hparent : q.parent? = some parent) (hne : q ≠ new) :
    ∃ above, p.parent? = some above ∧ above.relocate? old new = some parent := by
  obtain ⟨tail, hp, hq⟩ := relocate?_eq_some_iff.1 h
  rcases List.eq_nil_or_concat tail with rfl | ⟨front, last, rfl⟩
  · exact absurd (segments_injective (by simpa using hq)) hne
  · have hold : p ≠ old := by
      rintro rfl
      simp at hp
    obtain ⟨above, habove, -⟩ := exists_parent?_of_startsWith (startsWith_of_relocate?_old h) hold
    refine ⟨above, habove, relocate?_eq_some_iff.2 ⟨front, ?_, ?_⟩⟩
    · have hcut := hp.symm.trans (segments_eq_append_name habove)
      rw [List.concat_eq_append, ← List.append_assoc] at hcut
      exact (List.append_inj_left' hcut rfl).symm
    · have hcut := hq.symm.trans (segments_eq_append_name hparent)
      rw [List.concat_eq_append, ← List.append_assoc] at hcut
      exact (List.append_inj_left' hcut rfl).symm

/-! ### Ancestors -/

/-- The ancestors of a path are those of its parent and then the path itself. -/
theorem ancestors_eq (p : Path) :
    p.ancestors = (p.parent?.map ancestors).getD [] ++ [p] := by
  rw [ancestors, parent?]
  split <;> simp

/-- A path is among the ancestors of another exactly if the other starts with it. -/
theorem mem_ancestors_iff {p q : Path} : q ∈ p.ancestors ↔ p.startsWith q := by
  -- Along the chain of parents, which have fewer and fewer segments.
  induction hn : p.segments.length generalizing p with
  | zero => exact absurd (List.length_eq_zero_iff.1 hn) p.segments_ne_nil
  | succ n ih =>
    rw [ancestors_eq, List.mem_append, List.mem_singleton, startsWith_iff_segments]
    cases hp : p.parent? with
    | none =>
      rw [parent?_eq_none_iff.1 hp]
      simp only [Option.map_none, Option.getD_none, List.not_mem_nil, false_or]
      constructor
      · rintro rfl
        exact ⟨[], (List.append_nil _).trans (parent?_eq_none_iff.1 hp)⟩
      · intro hstart
        apply segments_injective
        rw [parent?_eq_none_iff.1 hp]
        refine hstart.eq_of_length_le ?_
        exact List.length_pos_iff.2 q.segments_ne_nil
    | some parent =>
      have hcut := segments_eq_append_name hp
      have hlength : parent.segments.length = n := by
        rw [hcut, List.length_append, List.length_singleton] at hn
        omega
      rw [hcut]
      simp only [Option.map_some, Option.getD_some, ih hlength, startsWith_iff_segments,
        List.prefix_concat_iff]
      constructor
      · rintro (h | rfl)
        · exact .inr h
        · exact .inl hcut
      · rintro (h | h)
        · exact .inr (segments_injective (h.trans hcut.symm))
        · exact .inl h

end DocTree.Path
