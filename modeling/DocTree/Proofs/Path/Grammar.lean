import DocTree.Proofs.Path.Algebra

/-!
# The texts that are read as paths

A text is read as a path exactly if it is a slash followed by valid segments with single slashes
between them, and at most one slash after the last. This slash is the only freedom in writing a
path: a path has two spellings, its own text and that text with a slash at the end.

## Main definitions

* `Path.Spells`: a text spells a list of segments.

## Main results

* `Path.chars_of_parse`: what is read is the text without the slash at its end.
* `Path.parse_eq_ok_iff`: the two spellings of a path.
* `Path.parse_iff_spells`: the texts that are read, what they are read as, and when two of them are
  read as the same path.
-/

namespace DocTree.Path

/-- A text spells a list of segments: they are the segments of a path, and the text is a slash
followed by the segments with single slashes between them, and possibly a slash at the end. -/
def Spells (raw : List Char) (segments : List (List Char)) : Prop :=
  AreSegments segments ∧ (raw = textOf segments ∨ raw = textOf segments ++ ['/'])

/-! ### The slash at the end -/

/-- A slash after something is dropped. -/
theorem dropTrailingSlash_append_slash {text : List Char} (hne : text ≠ []) :
    dropTrailingSlash (text ++ ['/']) = text := by
  have hlength := List.length_pos_iff.2 hne
  simp [dropTrailingSlash, hlength]

/-- What is dropped is one slash at the end, or nothing. -/
theorem eq_dropTrailingSlash_or (raw : List Char) :
    raw = dropTrailingSlash raw ∨ raw = dropTrailingSlash raw ++ ['/'] := by
  unfold dropTrailingSlash
  split
  next h =>
    rw [Bool.and_eq_true, decide_eq_true_iff] at h
    right
    exact (List.dropLast_append_getLast? '/' h.1).symm
  next => exact .inl rfl

/-! ### What is read -/

/-- A path that is read from a text has the text without the slash at its end. -/
theorem chars_of_parse {raw : List Char} {p : Path} (h : parse raw = .ok p) :
    p.chars = dropTrailingSlash raw := by
  unfold parse at h
  split at h
  next body hbody =>
    split at h
    · cases h
    · split at h
      · cases h
      · cases h
        exact hbody.symm
  next => cases h

/-- A path is read from its own text and from its text with a slash at the end, and from no other
text. -/
theorem parse_eq_ok_iff {raw : List Char} {p : Path} :
    parse raw = .ok p ↔ raw = p.chars ∨ raw = p.chars ++ ['/'] := by
  constructor
  · intro h
    rw [chars_of_parse h]
    exact eq_dropTrailingSlash_or raw
  · intro h
    have hne : p.chars ≠ [] := by
      obtain ⟨body, hbody, -⟩ := p.exists_body
      simp [hbody]
    -- Only what is left after the slash was dropped is read.
    have hdrop : dropTrailingSlash raw = dropTrailingSlash p.chars := by
      rcases h with rfl | rfl
      · rfl
      · rw [dropTrailingSlash_append_slash hne, dropTrailingSlash_chars]
    rw [← p.parse_chars]
    simp only [parse, hdrop]

/-- A text is read as the path whose segments it spells. -/
theorem parse_eq_ok_iff_spells {raw : List Char} {p : Path} :
    parse raw = .ok p ↔ Spells raw p.segments := by
  rw [parse_eq_ok_iff, Spells, textOf_segments]
  exact (and_iff_right p.areSegments_segments).symm

/-- The segments that a text spells are those of the path that is read. -/
theorem Spells.exists_parse {raw : List Char} {segments : List (List Char)}
    (h : Spells raw segments) : ∃ p, parse raw = .ok p ∧ p.segments = segments := by
  obtain ⟨hne, hvalid⟩ := h.1
  refine ⟨ofSegments segments hne hvalid, ?_, segments_ofSegments hne hvalid⟩
  rw [parse_eq_ok_iff_spells, segments_ofSegments]
  exact h

/-- A text is read as a path exactly if it spells segments, and then it spells the segments of that
path and no others. What is read is the text without the slash at its end, and is read again from
its own text. Two texts that are read as the same path differ at most in one slash at the end. -/
theorem parse_iff_spells (raw : List Char) :
    ((∃ p, parse raw = .ok p) ↔ ∃ segments, Spells raw segments) ∧
    (∀ p segments, parse raw = .ok p → (Spells raw segments ↔ p.segments = segments)) ∧
    (∀ p, parse raw = .ok p →
      p.chars = dropTrailingSlash raw ∧ (raw = p.chars ∨ raw = p.chars ++ ['/']) ∧
      parse p.chars = .ok p) ∧
    ∀ p other, parse raw = .ok p → parse other = .ok p →
      raw = other ∨ raw = other ++ ['/'] ∨ other = raw ++ ['/'] := by
  refine ⟨⟨?_, ?_⟩, fun p segments h => ⟨fun hspells => ?_, ?_⟩,
    fun p h => ⟨chars_of_parse h, parse_eq_ok_iff.1 h, p.parse_chars⟩, fun p other h hother => ?_⟩
  · rintro ⟨p, h⟩
    exact ⟨p.segments, parse_eq_ok_iff_spells.1 h⟩
  · rintro ⟨segments, h⟩
    obtain ⟨p, hparse, -⟩ := h.exists_parse
    exact ⟨p, hparse⟩
  · obtain ⟨q, hq, rfl⟩ := hspells.exists_parse
    rw [h, Except.ok.injEq] at hq
    rw [hq]
  · rintro rfl
    exact parse_eq_ok_iff_spells.1 h
  · rcases parse_eq_ok_iff.1 h with rfl | rfl <;> rcases parse_eq_ok_iff.1 hother with rfl | rfl <;>
      simp

/-- A path with a slash at the end. -/
example : parse "/db/a/".toList = parse "/db/a".toList := by decide

end DocTree.Path
