import Mathlib.Data.List.Infix
import Mathlib.Data.Set.Function
import DocTree.Store.Error
import DocTree.Proofs.Path.Segments

/-!
# The algebra of paths

A path is its list of segments, and every operation on paths is an operation on lists: ancestry is
being a prefix, appending is appending, the parent drops the last segment, the ancestors are the
prefixes in the order of their lengths. Moving a path to another place and back leads to the path
again. Whatever path an operation returns is one that is read back from its own text.

## Main definitions

* `Path.AreSegments`: a list of texts is the list of the segments of a path.

## Main results

* `Path.bijOn_segments`: the lists of segments are exactly the lists that are not empty and hold
  valid segments only, and different paths have different lists.
* `Path.parse_chars`: a path is read from its text.
* `Path.map_segments_ancestors`: the ancestors of a path have the prefixes of its segments.
* `Path.stripAncestor?_append` and `Path.relocate?_bind_relocate?`: appending and moving are undone
  by stripping and by moving back.
* `Path.operations_on_segments`: all operations together.
-/

namespace DocTree.Path

/-! ### Lists of segments -/

/-- A list of texts can be the list of the segments of a path: it is not empty, and each text is a
valid segment. -/
def AreSegments (segments : List (List Char)) : Prop :=
  segments ≠ [] ∧ ∀ segment ∈ segments, IsSegment segment

theorem areSegments_segments (p : Path) : AreSegments p.segments :=
  ⟨p.segments_ne_nil, fun _ h => isSegment_of_mem_segments h⟩

/-- Paths correspond to the lists that are not empty and hold valid segments only. -/
theorem bijOn_segments : Set.BijOn segments Set.univ {texts | AreSegments texts} := by
  refine ⟨fun p _ => p.areSegments_segments, fun a _ b _ h => segments_injective h, ?_⟩
  rintro texts ⟨hne, hvalid⟩
  exact ⟨ofSegments texts hne hvalid, Set.mem_univ _, segments_ofSegments hne hvalid⟩

/-! ### Reading a path's own text -/

/-- Nothing is wrong with a valid segment. -/
theorem segmentFault?_of_isSegment {segment : List Char} (h : IsSegment segment) :
    segmentFault? segment = none := by
  obtain ⟨hne, -, hdot, hdots⟩ := h
  simp [segmentFault?, hne, hdot, hdots]

theorem isSegment_name (p : Path) : IsSegment p.name :=
  isSegment_of_mem_segments (List.mem_of_getLast? p.getLast?_segments)

/-- The text of a path ends with the last character of its name, which is no slash. -/
theorem dropTrailingSlash_chars (p : Path) : dropTrailingSlash p.chars = p.chars := by
  have hlast : p.chars.getLast? ≠ some '/' := by
    rw [← p.parentChars_append_name, List.getLast?_append]
    intro h
    obtain ⟨first, rest, hname⟩ := List.exists_cons_of_ne_nil p.isSegment_name.1
    have hslash : p.name.getLast? = some '/' := by
      rw [hname] at h ⊢
      simpa using h
    exact p.slash_notMem_name (List.mem_of_getLast? hslash)
  simp [dropTrailingSlash, hlast]

/-- A path is read from its text. -/
theorem parse_chars (p : Path) : parse p.chars = .ok p := by
  have hfaultless : ∀ segment ∈ p.segments, segmentFault? segment = none :=
    fun segment h => segmentFault?_of_isSegment (isSegment_of_mem_segments h)
  unfold parse
  rw [p.dropTrailingSlash_chars]
  split
  next body hbody =>
    rw [segments, hbody, List.tail_cons] at hfaultless
    have hne : body ≠ [] := by
      rintro rfl
      simpa [segmentFault?] using hfaultless []
    rw [if_neg (by simpa using hne)]
    split
    next fault hfault =>
      rw [List.findSome?_eq_none_iff.2 hfaultless] at hfault
      cases hfault
    next =>
      rw [Except.ok.injEq]
      exact ext hbody.symm
  next hno =>
    obtain ⟨body, hbody, -⟩ := p.exists_body
    exact absurd hbody (hno body)

/-! ### The operations -/

/-- To lie strictly below a path is to have its segments as a prefix, and more. -/
theorem isBelow_iff_segments {p a : Path} :
    p.isBelow a ↔ a.segments <+: p.segments ∧ a.segments ≠ p.segments := by
  rw [isBelow, Bool.and_eq_true, bne_iff_ne, startsWith_iff_segments, and_comm]
  refine and_congr_right fun _ => not_congr ⟨?_, ?_⟩
  · rintro rfl
    rfl
  · exact fun h => (segments_injective h).symm

/-- Joining appends a segment. -/
theorem join_eq_ok_iff {p child : Path} {segment : String} :
    p.join segment = .ok child ↔
      IsSegment segment.toList ∧ child.segments = p.segments ++ [segment.toList] := by
  rw [← child?_eq_some_iff, join]
  cases p.child? segment.toList <;> simp

/-- A segment can be joined exactly if it is valid. -/
theorem exists_join_eq_ok_iff {p : Path} {segment : String} :
    (∃ child, p.join segment = .ok child) ↔ IsSegment segment.toList := by
  constructor
  · rintro ⟨child, h⟩
    exact (join_eq_ok_iff.1 h).1
  · intro h
    obtain ⟨child, hchild⟩ : ∃ child, p.child? segment.toList = some child := by
      rw [child?, dif_pos h]
      exact ⟨_, rfl⟩
    exact ⟨child, join_eq_ok_iff.2 (child?_eq_some_iff.1 hchild)⟩

/-- The parent of a path drops its last segment; a path of one segment has none. -/
theorem map_segments_parent? (p : Path) :
    p.parent?.map segments =
      if p.segments.length = 1 then none else some p.segments.dropLast := by
  cases h : p.parent? with
  | none =>
    rw [parent?_eq_none_iff] at h
    rw [if_pos (by rw [h, List.length_singleton]), Option.map_none]
  | some parent =>
    have hpos := List.length_pos_iff.2 parent.segments_ne_nil
    have hlength := length_segments_of_parent? h
    rw [if_neg (by omega), segments_eq_append_name h, List.dropLast_concat, Option.map_some]

/-- The segments of the ancestors are the prefixes of the segments, shortest first. -/
theorem map_segments_ancestors (p : Path) : p.ancestors.map segments = p.segments.inits.tail := by
  -- Along the chain of parents, which have fewer and fewer segments.
  induction hn : p.segments.length generalizing p with
  | zero => exact absurd (List.length_eq_zero_iff.1 hn) p.segments_ne_nil
  | succ n ih =>
    rw [ancestors_eq]
    cases hp : p.parent? with
    | none =>
      rw [parent?_eq_none_iff] at hp
      simp [hp]
    | some parent =>
      have hlength := length_segments_of_parent? hp
      have hparent := ih parent (by omega)
      have hne : parent.segments.inits ≠ [] := by
        rw [← List.length_pos_iff, List.length_inits]
        omega
      rw [segments_eq_append_name hp, List.inits_append, List.tail_append_of_ne_nil hne, ← hparent]
      simp [segments_eq_append_name hp]

/-- Stripping an ancestor undoes appending to it. -/
theorem stripAncestor?_append (a b : Path) : (a.append b).stripAncestor? a = some b :=
  stripAncestor?_eq_some_iff.2 rfl

/-- An ancestor can be stripped exactly off the paths strictly below it. -/
theorem exists_stripAncestor?_iff {p a : Path} :
    (∃ rest, p.stripAncestor? a = some rest) ↔ p.isBelow a := by
  simp only [stripAncestor?_eq_some_iff]
  constructor
  · rintro ⟨rest, rfl⟩
    rw [isBelow_iff_segments, segments_append]
    exact ⟨List.prefix_append .., by simp [rest.segments_ne_nil]⟩
  · intro h
    obtain ⟨hbegins, hne⟩ := isBelow_iff_segments.1 h
    have habove : ¬a.startsWith p := fun habove =>
      hne (hbegins.eq_of_length_le (startsWith_iff_segments.1 habove).length_le)
    obtain ⟨tail, htail⟩ := hbegins
    have hself : p.segments <+: a.segments ++ tail := by rw [htail]
    obtain ⟨rest, hrest, -⟩ := exists_append_of_prefix hself habove
    exact ⟨rest, hrest⟩

/-- Moving to another place and back leads to the same path, for every path at or below the first
place; no other path can be moved from there. -/
theorem relocate?_bind_relocate? (p a b : Path) :
    ((p.relocate? a b).bind fun q => q.relocate? b a) =
      if p.startsWith a then some p else none := by
  split
  next h =>
    obtain ⟨q, hq⟩ := exists_relocate? h b
    rw [hq, Option.bind_some, relocate?_comm.1 hq]
  next h =>
    cases hq : p.relocate? a b with
    | none => rfl
    | some q => exact absurd (startsWith_of_relocate?_old hq) h

/-- Paths are lists of valid segments, and the operations on paths are operations on these lists:
to start with a path is to have its segments as a prefix, to lie below it to have more segments in
addition; appending appends; joining appends one segment and succeeds exactly for valid ones; the
parent drops the last segment; the ancestors are the prefixes, shortest first; stripping undoes
appending and succeeds exactly strictly below; moving there and back changes nothing at and below
the place. All paths that arise are valid, since they are read from their own texts. -/
theorem operations_on_segments (a b c : Path) (segment : String) :
    Set.BijOn segments Set.univ {texts | AreSegments texts} ∧
    (b.startsWith a ↔ a.segments <+: b.segments) ∧
    (b.isBelow a ↔ a.segments <+: b.segments ∧ a.segments ≠ b.segments) ∧
    (a.append b).segments = a.segments ++ b.segments ∧
    ((∃ child, a.join segment = .ok child) ↔ IsSegment segment.toList) ∧
    (∀ child, a.join segment = .ok child ↔
      IsSegment segment.toList ∧ child.segments = a.segments ++ [segment.toList]) ∧
    (a.parent?.map segments =
      if a.segments.length = 1 then none else some a.segments.dropLast) ∧
    a.ancestors.map segments = a.segments.inits.tail ∧
    (a.append b).stripAncestor? a = some b ∧
    (∀ rest, b.stripAncestor? a = some rest ↔ b = a.append rest) ∧
    ((∃ rest, b.stripAncestor? a = some rest) ↔ b.isBelow a) ∧
    ((c.relocate? a b).bind fun moved => moved.relocate? b a) =
      (if c.startsWith a then some c else none) ∧
    (∀ p : Path, parse p.chars = .ok p) :=
  ⟨bijOn_segments, startsWith_iff_segments, isBelow_iff_segments, segments_append a b,
    exists_join_eq_ok_iff, fun _ => join_eq_ok_iff, map_segments_parent? a,
    map_segments_ancestors a, stripAncestor?_append a b, fun _ => stripAncestor?_eq_some_iff,
    exists_stripAncestor?_iff, relocate?_bind_relocate? c a b, parse_chars⟩

end DocTree.Path
