import DocTree.Proofs.Config.Resolving
import DocTree.Proofs.Path.Algebra
import DocTree.Proofs.Path.Bytes

/-!
# Scans and filters

The store and the configuration cache find everything at and below a path by a look-up and a scan
over a range of keys. Whatever the keys are, this finds what a look at every single key would find:
the path itself first, and then the paths strictly below it in the order of their bytes.

## Main results

* `Path.parent?_eq_some_iff`: the parent of a path is the path above it with one segment less.
* `PathMap.subtree_eq_filter`: the subtree of a path as a filter of all entries.
* `Tree.children_eq_filter`: the children of a path are the stored paths that have it as parent.
* `ConfigCache.slots_invalidate` and `ConfigCache.fst_invalidate`: an invalidation removes the slots
  at and below its path, and counts them.
* `scans_eq_filter`: all of this together.
-/

namespace DocTree

/-- A path is the parent of another exactly if the other lies below it and has one segment more. -/
theorem Path.parent?_eq_some_iff {p parent : Path} :
    p.parent? = some parent ↔ p.isBelow parent ∧ p.depth = parent.depth + 1 := by
  rw [isBelow_iff_segments]
  constructor
  · intro h
    refine ⟨⟨?_, ?_⟩, length_segments_of_parent? h⟩
    · rw [segments_eq_append_name h]
      exact List.prefix_append ..
    · simp [segments_eq_append_name h]
  · rintro ⟨⟨⟨tail, htail⟩, -⟩, hdepth⟩
    have hlength : tail.length = 1 := by
      rw [depth, depth, ← htail, List.length_append] at hdepth
      omega
    obtain ⟨last, rfl⟩ := List.length_eq_one_iff.1 hlength
    exact parent?_eq_some_of_segments htail.symm

namespace PathMap

variable {α : Type}

theorem pairwise_keys (map : PathMap α) : map.keys.Pairwise (· < ·) :=
  List.pairwise_map.2 map.increasing

theorem nodup_keys (map : PathMap α) : map.keys.Nodup := by
  apply map.pairwise_keys.imp
  rintro key _ hlt rfl
  exact Path.lt_irrefl key hlt

/-- The keys of a map are the bound paths. -/
theorem mem_keys_iff {map : PathMap α} {key : Path} : key ∈ map.keys ↔ map.contains key := by
  rw [keys, List.mem_map, contains, Option.isSome_iff_exists]
  constructor
  · rintro ⟨⟨key, value⟩, hentry, rfl⟩
    exact ⟨value, mem_entries_iff.1 hentry⟩
  · rintro ⟨value, hget⟩
    exact ⟨(key, value), mem_entries_iff.2 hget, rfl⟩

/-- The subtree of a path consists of its own entry and of the entries strictly below it. -/
theorem subtree_eq_filter (map : PathMap α) (path : Path) :
    map.subtree path =
      map.entries.filter (fun entry => entry.1 = path) ++
        map.entries.filter fun entry => entry.1.isBelow path := by
  rw [subtree, below_eq_filter]
  congr 1
  cases hget : map.get? path with
  | some value => simp [filter_entries_of_get? hget]
  | none =>
    symm
    simp only [Option.map_none, Option.toList_none, List.filter_eq_nil_iff, decide_eq_true_eq]
    -- An entry of the path would have been found.
    rintro ⟨key, value⟩ hentry rfl
    rw [mem_entries_iff, hget] at hentry
    cases hentry

/-- Below a path every entry is listed once, in the order of the keys. -/
theorem increasingKeys_below (map : PathMap α) (path : Path) :
    IncreasingKeys (map.below path) := by
  rw [below_eq_filter]
  exact map.increasing.filter _

/-- No key is listed twice in a subtree. -/
theorem nodup_keys_subtree (map : PathMap α) (path : Path) :
    ((map.subtree path).map Prod.fst).Nodup := by
  rw [subtree, List.map_append, List.nodup_append]
  refine ⟨?_, nodup_keys ⟨map.below path, map.increasingKeys_below path⟩, ?_⟩
  · cases map.get? path <;> simp
  · -- The path itself does not lie strictly below itself.
    intro key hfirst other hbelow
    rw [below_eq_filter] at hbelow
    rintro rfl
    have hkey : key = path := by
      cases hget : map.get? path <;> simp [hget] at hfirst
      exact hfirst
    simp [hkey, Path.isBelow] at hbelow

end PathMap

/-- The children of a path are the stored paths whose parent it is. -/
theorem Tree.children_eq_filter (tree : Tree) (path : Path) :
    tree.children path = tree.keys.filter fun key => key.parent? = some path := by
  rw [children, PathMap.subtree_eq_filter, List.map_append, List.filter_append]
  -- The path itself is found by the scan, too, but it has not one segment more.
  have hself : ((tree.entries.filter fun entry => entry.1 = path).map Prod.fst).filter
      (fun key => key.depth = path.depth + 1) = [] := by
    simp only [List.filter_eq_nil_iff, List.mem_map, List.mem_filter, decide_eq_true_eq]
    rintro key ⟨entry, ⟨-, rfl⟩, rfl⟩
    omega
  rw [hself, List.nil_append, PathMap.keys, List.filter_map, List.filter_map, List.filter_filter]
  congr 1
  apply List.filter_congr
  intro entry _
  rw [Bool.eq_iff_iff]
  simp [Path.parent?_eq_some_iff, and_comm]

namespace ConfigCache

/-- An invalidation keeps exactly the slots that are not at or below its path. -/
theorem slots_invalidate (cache : ConfigCache) (path : Path) :
    (cache.invalidate path).2.slots =
      cache.slots.filter fun key _ => !key.startsWith path := by
  apply PathMap.ext_get?
  intro key
  rw [get?_slots_invalidate, PathMap.get?_filter]
  by_cases hbelow : key.startsWith path <;> cases cache.slots.get? key <;>
    simp [hbelow, Option.filter]

/-- An invalidation counts the slots at and below its path. -/
theorem fst_invalidate (cache : ConfigCache) (path : Path) :
    (cache.invalidate path).1 = cache.slots.keys.countP fun key => key.startsWith path := by
  rw [List.countP_eq_length_filter]
  -- What is counted and what is removed are the same keys, and none of them occurs twice.
  apply List.Perm.length_eq
  rw [List.perm_ext_iff_of_nodup (cache.slots.nodup_keys_subtree path)
    (cache.slots.nodup_keys.filter _)]
  intro key
  rw [PathMap.mem_keys_subtree_iff, List.mem_filter, PathMap.mem_keys_iff]

end ConfigCache

/-- Whatever is stored, the subtree of a path consists of the stored resources whose paths start
with it: first its own one, if it has one, and then the strictly lower ones in the order of bytes,
each once. Its children are the stored paths whose parent it is, in the order of bytes. An
invalidation removes from the configuration cache exactly the slots, ready or pending, whose paths
start with its path, and returns their number. -/
theorem scans_eq_filter (tree : Tree) (cache : ConfigCache) (path : Path) :
    (tree.subtree path =
        tree.entries.filter (fun entry => entry.1 = path) ++ tree.below path ∧
      tree.below path = tree.entries.filter (fun entry => entry.1.isBelow path) ∧
      (tree.below path).Pairwise (fun entry later => entry.1.bytes < later.1.bytes) ∧
      (∀ key resource, (key, resource) ∈ tree.subtree path ↔
        tree.get? key = some resource ∧ key.startsWith path) ∧
      ((tree.subtree path).map Prod.fst).Nodup) ∧
    (tree.children path = tree.keys.filter (fun key => key.parent? = some path) ∧
      (tree.children path).Pairwise fun key later => key.bytes < later.bytes) ∧
    (cache.invalidate path).2 =
      { cache with slots := cache.slots.filter fun key _ => !key.startsWith path } ∧
    (cache.invalidate path).1 = cache.slots.keys.countP fun key => key.startsWith path := by
  refine ⟨⟨?_, tree.below_eq_filter path, ?_, fun _ _ => PathMap.mem_subtree_iff,
    tree.nodup_keys_subtree path⟩, ⟨tree.children_eq_filter path, ?_⟩, ?_,
    cache.fst_invalidate path⟩
  · rw [PathMap.subtree_eq_filter, PathMap.below_eq_filter]
  · exact (tree.increasingKeys_below path).imp Path.lt_iff_bytes_lt.1
  · rw [Tree.children_eq_filter]
    exact (tree.pairwise_keys.filter _).imp Path.lt_iff_bytes_lt.1
  · rw [← cache.slots_invalidate path]
    rfl

end DocTree
