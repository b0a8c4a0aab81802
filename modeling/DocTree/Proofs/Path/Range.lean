import DocTree.Path.Map
import DocTree.Proofs.Path.Segments

/-!
# Scanning the range below a path

The entries strictly below a path are read off a map by skipping the keys that come before the
path's text and a slash, and taking keys as long as they start with it. In the order of paths these
keys follow one another, so nothing is missed.

## Main results

* `Path.isPrefixOf_of_le_of_le`: texts between two that start with a key start with it.
* `PathMap.below_eq_filter`: the range scan finds exactly the entries strictly below a path.
* `PathMap.mem_subtree_iff`: the subtree of a path holds exactly the entries at and below it.
* `PathMap.get?_filter` and `PathMap.get?_eraseAll`: look-up after entries were removed.
-/

namespace DocTree

namespace Path

/-- A text that starts with a key does not come before the key. -/
theorem not_lt_of_isPrefixOf {key text : List Char} (h : key.isPrefixOf text) : ¬text < key := by
  induction key generalizing text with
  | nil => exact List.not_lt_nil _
  | cons c key ih =>
    cases text with
    | nil => simp at h
    | cons d text =>
      simp only [List.isPrefixOf, Bool.and_eq_true, beq_iff_eq] at h
      obtain ⟨rfl, h⟩ := h
      rw [List.cons_lt_cons_self]
      exact ih h

/-- A text that does not come before a key, nor after a text that starts with the key, starts with
it as well. -/
theorem isPrefixOf_of_le_of_le {key text later : List Char} (hkey : ¬text < key)
    (hle : ¬later < text) (h : key.isPrefixOf later) : key.isPrefixOf text := by
  induction key generalizing text later with
  | nil => simp
  | cons c key ih =>
    cases later with
    | nil => simp at h
    | cons e later =>
      simp only [List.isPrefixOf, Bool.and_eq_true, beq_iff_eq] at h
      obtain ⟨rfl, h⟩ := h
      cases text with
      | nil => exact absurd (List.nil_lt_cons ..) hkey
      | cons d text =>
        rw [List.cons_lt_cons_iff] at hkey hle
        -- The first character of the text lies between `c` and `c`.
        have hd : c = d := by
          refine Char.le_antisymm ?_ ?_
          · exact Char.not_lt.1 fun hlt => hkey (.inl hlt)
          · exact Char.not_lt.1 fun hlt => hle (.inl hlt)
        subst hd
        simp only [List.isPrefixOf, BEq.rfl, Bool.true_and]
        exact ih (fun hlt => hkey (.inr ⟨rfl, hlt⟩)) (fun hlt => hle (.inr ⟨rfl, hlt⟩)) h

/-- The paths that start with the key of a path's descendants are those strictly below it. -/
theorem isPrefixOf_descendantKey_iff {p a : Path} :
    a.descendantKey.isPrefixOf p.chars ↔ p.isBelow a := by
  rw [ List.isPrefixOf_iff_prefix, isBelow, Bool.and_eq_true, startsWith_iff_chars, descendantKey,
    bne_iff_ne]
  constructor
  · rintro ⟨rest, h⟩
    have hp : p.chars = a.chars ++ '/' :: rest := by rw [← h]; simp
    refine ⟨?_, .inr ⟨rest, hp⟩⟩
    rintro rfl
    have := congrArg List.length hp
    simp at this
  · rintro ⟨hne, h⟩
    obtain ⟨rest, h⟩ := h.resolve_left hne
    exact ⟨rest, by rw [h]; simp⟩

/-- A path starts with another exactly if it is that one or lies strictly below it. -/
theorem startsWith_iff_isBelow {p a : Path} : p.startsWith a ↔ p = a ∨ p.isBelow a := by
  by_cases h : p = a
  · simp [h]
  · simp [isBelow, h]

end Path

namespace PathMap

variable {α : Type}

/-- Skipping the keys before `key` and taking those that start with it finds all keys that start
with it. -/
theorem takeWhile_dropWhile_eq_filter {entries : List (Path × α)} (h : IncreasingKeys entries)
    (key : List Char) :
    (entries.dropWhile fun entry => entry.1.chars < key).takeWhile
        (fun entry => key.isPrefixOf entry.1.chars) =
      entries.filter fun entry => key.isPrefixOf entry.1.chars := by
  induction entries with
  | nil => rfl
  | cons first rest ih =>
    have hlater : ∀ {entry}, entry ∈ rest → first.1 < entry.1 := List.rel_of_pairwise_cons h
    by_cases hlt : first.1.chars < key
    · have hno : key.isPrefixOf first.1.chars = false :=
        Bool.eq_false_iff.2 fun hyes => Path.not_lt_of_isPrefixOf hyes hlt
      rw [List.dropWhile_cons_of_pos (by simpa using hlt),
        List.filter_cons_of_neg (by simp [hno]), ih h.of_cons]
    · rw [List.dropWhile_cons_of_neg (by simpa using hlt)]
      -- Nothing after the first key comes before `key`, so nothing more is skipped.
      have hskip : rest.dropWhile (fun entry => decide (entry.1.chars < key)) = rest := by
        cases rest with
        | nil => rfl
        | cons second others =>
          refine List.dropWhile_cons_of_neg ?_
          have hsecond := hlater (List.mem_cons_self ..)
          simpa using fun hbefore => hlt (List.lt_trans (α := Char) hsecond hbefore)
      by_cases hprefix : key.isPrefixOf first.1.chars
      · rw [List.takeWhile_cons_of_pos (by exact hprefix),
          List.filter_cons_of_pos (by exact hprefix), ← ih h.of_cons, hskip]
      · rw [List.takeWhile_cons_of_neg (by exact hprefix),
          List.filter_cons_of_neg (by exact hprefix)]
        symm
        rw [List.filter_eq_nil_iff]
        intro entry hentry hlong
        refine hprefix (Path.isPrefixOf_of_le_of_le hlt ?_ hlong)
        exact List.lt_asymm (hlater hentry)

/-- The range scan finds exactly the entries strictly below a path. -/
theorem below_eq_filter (map : PathMap α) (path : Path) :
    map.below path = map.entries.filter fun entry => entry.1.isBelow path := by
  rw [below, takeWhile_dropWhile_eq_filter map.increasing]
  refine List.filter_congr fun entry _ => ?_
  rw [Bool.eq_iff_iff, Path.isPrefixOf_descendantKey_iff]

/-- The entries of a list with increasing keys are what look-up finds. -/
theorem mem_entries_iff_find? {entries : List (Path × α)} (h : IncreasingKeys entries)
    {key : Path} {value : α} : (key, value) ∈ entries ↔ find? key entries = some value := by
  induction entries with
  | nil => simp [find?]
  | cons first rest ih =>
    obtain ⟨k, a⟩ := first
    have hlater : ∀ {entry}, entry ∈ rest → k < entry.1 := List.rel_of_pairwise_cons h
    rw [List.mem_cons, find?, ih h.of_cons]
    -- Keys increase, so a key that is found does not come again.
    by_cases hk : k = key
    · subst hk
      rw [if_pos rfl, find?_eq_none_of_lt fun entry hentry => hlater hentry]
      simp [eq_comm]
    · rw [if_neg hk]
      simp [Ne.symm hk]

/-- The entries of a map are what look-up finds. -/
theorem mem_entries_iff {map : PathMap α} {key : Path} {value : α} :
    (key, value) ∈ map.entries ↔ map.get? key = some value :=
  mem_entries_iff_find? map.increasing

theorem nodup_entries (map : PathMap α) : map.entries.Nodup := by
  refine List.Pairwise.imp (fun {entry other} hlt => ?_) map.increasing
  rintro rfl
  exact Path.lt_irrefl _ hlt

/-- Exactly one entry has a bound key. -/
theorem filter_entries_of_get? {map : PathMap α} {key : Path} {value : α}
    (h : map.get? key = some value) :
    map.entries.filter (fun entry => entry.1 = key) = [(key, value)] := by
  refine List.perm_singleton.1 ((List.perm_ext_iff_of_nodup (map.nodup_entries.filter _)
    (by simp)).2 fun entry => ?_)
  obtain ⟨other, found⟩ := entry
  rw [List.mem_filter, mem_entries_iff, decide_eq_true_iff, List.mem_singleton, Prod.mk.injEq]
  constructor
  · rintro ⟨hfound, rfl⟩
    rw [h] at hfound
    cases hfound
    exact ⟨rfl, rfl⟩
  · rintro ⟨rfl, rfl⟩
    exact ⟨h, rfl⟩

/-- The values of a map are what look-up finds. -/
theorem mem_values_iff {map : PathMap α} {value : α} :
    value ∈ map.values ↔ ∃ key, map.get? key = some value := by
  rw [values, List.mem_map]
  constructor
  · rintro ⟨⟨key, value⟩, hmem, rfl⟩
    exact ⟨key, mem_entries_iff.1 hmem⟩
  · rintro ⟨key, hget⟩
    exact ⟨(key, value), mem_entries_iff.2 hget, rfl⟩

/-- Look-up in a filtered map finds what passes the test. -/
theorem get?_filter (map : PathMap α) (keep : Path → α → Bool) (key : Path) :
    (map.filter keep).get? key = (map.get? key).filter (keep key) := by
  refine Option.ext fun value => ?_
  rw [← mem_entries_iff, filter, List.mem_filter, mem_entries_iff, Option.filter_eq_some_iff]

/-- The subtree of a path holds exactly the entries at and below it. -/
theorem mem_subtree_iff {map : PathMap α} {path key : Path} {value : α} :
    (key, value) ∈ map.subtree path ↔ map.get? key = some value ∧ key.startsWith path := by
  rw [subtree, below_eq_filter, List.mem_append, List.mem_filter, mem_entries_iff,
    Path.startsWith_iff_isBelow]
  by_cases hkey : key = path
  · subst hkey
    simp [Path.isBelow]
  · simp [hkey, Ne.symm hkey]

/-- A key is listed in the subtree of a path exactly if it is bound and lies at or below it. -/
theorem mem_keys_subtree_iff {map : PathMap α} {path key : Path} :
    key ∈ (map.subtree path).map Prod.fst ↔ map.contains key ∧ key.startsWith path := by
  rw [List.mem_map, contains, Option.isSome_iff_exists]
  constructor
  · rintro ⟨⟨k, value⟩, hmem, rfl⟩
    obtain ⟨hget, hbelow⟩ := mem_subtree_iff.1 hmem
    exact ⟨⟨value, hget⟩, hbelow⟩
  · rintro ⟨⟨value, hget⟩, hbelow⟩
    exact ⟨(key, value), mem_subtree_iff.2 ⟨hget, hbelow⟩, rfl⟩

/-- Several removed keys have no value, every other key has the value it had. -/
theorem get?_eraseAll (map : PathMap α) (doomed : List Path) (key : Path) :
    (map.eraseAll doomed).get? key = if key ∈ doomed then none else map.get? key := by
  induction doomed generalizing map with
  | nil => simp [eraseAll]
  | cons first rest ih =>
    have hstep : map.eraseAll (first :: rest) = (map.erase first).eraseAll rest := rfl
    rw [hstep, ih, get?_erase]
    by_cases hfirst : first = key
    · simp [hfirst]
    · simp [hfirst, Ne.symm hfirst]

end PathMap

end DocTree
