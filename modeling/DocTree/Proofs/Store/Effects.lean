import DocTree.Proofs.Store.Writes

/-!
# Look-up after the writes of a mutation

What look-up finds after the writes of a mutation. Most kinds of mutation write one or two paths;
the three that act on whole collections put copies of everything at and below a collection to
another place, or clear everything at and below it.

## Main results

* `Tree.get?_applyWrites_of_mem`: a path holds what the writes of it agree on.
* `Tree.get?_applyWrites_copyWrites` and `Tree.get?_applyWrites_clearWrites`: look-up after copying
  and after clearing.
-/

namespace DocTree.Tree

variable {tree : Tree} {path : Path}

theorem fst_applyWrites_append (tree : Tree) (front back : List Write) :
    (tree.applyWrites (front ++ back)).1 = ((tree.applyWrites front).1.applyWrites back).1 := by
  rw [fst_applyWrites, fst_applyWrites, fst_applyWrites, undo_append]

/-- If all writes of a path agree on the value, then the path holds this value afterwards. -/
theorem get?_applyWrites_of_mem (tree : Tree) {writes : List Write} {value : Option Resource}
    (hmem : path ∈ writes.map Prod.fst)
    (hall : ∀ entry ∈ writes, entry.1 = path → entry.2 = value) :
    (tree.applyWrites writes).1.get? path = value := by
  induction writes generalizing tree with
  | nil => simp at hmem
  | cons entry rest ih =>
    rw [List.forall_mem_cons] at hall
    by_cases hlater : path ∈ rest.map Prod.fst
    · exact ih (tree.write entry.1 entry.2) hlater hall.2
    · -- The first write is the only one of the path.
      have hfirst : path = entry.1 := by
        rw [List.map_cons, List.mem_cons] at hmem
        exact hmem.resolve_right hlater
      rw [applyWrites]
      refine (get?_applyWrites_of_notMem _ hlater).trans ?_
      rw [get?_write, if_pos hfirst.symm, hall.1 hfirst.symm]

theorem mem_copyWrites_iff {source destination target : Path} {value : Option Resource} :
    (target, value) ∈ tree.copyWrites source destination ↔
      ∃ origin resource, tree.get? origin = some resource ∧
        origin.relocate? source destination = some target ∧ value = some resource := by
  simp only [copyWrites, List.mem_filterMap, Option.map_eq_some_iff, Prod.mk.injEq, Prod.exists,
    PathMap.mem_subtree_iff]
  constructor
  · rintro ⟨origin, resource, ⟨hstored, -⟩, target, hmoved, rfl, rfl⟩
    exact ⟨origin, resource, hstored, hmoved, rfl⟩
  · rintro ⟨origin, resource, hstored, hmoved, rfl⟩
    exact ⟨origin, resource, ⟨hstored, Path.startsWith_of_relocate?_old hmoved⟩, target, hmoved,
      rfl, rfl⟩

/-- After copying, a path holds what its counterpart at the source holds, or else what it held. -/
theorem get?_applyWrites_copyWrites (tree : Tree) (source destination path : Path) :
    (tree.applyWrites (tree.copyWrites source destination)).1.get? path =
      ((path.relocate? destination source).bind tree.get?).or (tree.get? path) := by
  cases hcopied : (path.relocate? destination source).bind tree.get? with
  | some resource =>
    obtain ⟨origin, hmoved, hstored⟩ := Option.bind_eq_some_iff.1 hcopied
    have hmoved' := Path.relocate?_comm.1 hmoved
    refine get?_applyWrites_of_mem tree ?_ fun entry hentry hpath => ?_
    · exact List.mem_map.2 ⟨(path, some resource),
        mem_copyWrites_iff.2 ⟨origin, resource, hstored, hmoved', rfl⟩, rfl⟩
    · -- Whatever is copied to the path comes from the same counterpart.
      obtain ⟨target, value⟩ := entry
      obtain rfl : target = path := hpath
      obtain ⟨other, found, hfound, hother, rfl⟩ := mem_copyWrites_iff.1 hentry
      rw [Path.relocate?_comm, hmoved, Option.some.injEq] at hother
      rw [← hother, hstored] at hfound
      cases hfound
      rfl
  | none =>
    rw [Option.none_or]
    refine get?_applyWrites_of_notMem tree fun hmem => ?_
    obtain ⟨⟨target, value⟩, hentry, rfl⟩ := List.mem_map.1 hmem
    obtain ⟨origin, resource, hstored, hmoved, rfl⟩ := mem_copyWrites_iff.1 hentry
    rw [Path.relocate?_comm] at hmoved
    rw [hmoved, Option.bind_some, hstored] at hcopied
    cases hcopied

theorem mem_clearWrites_iff {root target : Path} {value : Option Resource} :
    (target, value) ∈ tree.clearWrites root ↔
      tree.contains target ∧ target.startsWith root ∧ value = none := by
  simp only [clearWrites, List.mem_map, List.mem_reverse, Prod.mk.injEq, Prod.exists,
    PathMap.mem_subtree_iff, PathMap.contains, Option.isSome_iff_exists]
  constructor
  · rintro ⟨target, resource, ⟨hstored, hbelow⟩, rfl, rfl⟩
    exact ⟨⟨resource, hstored⟩, hbelow, rfl⟩
  · rintro ⟨⟨resource, hstored⟩, hbelow, rfl⟩
    exact ⟨target, resource, ⟨hstored, hbelow⟩, rfl, rfl⟩

/-- Clearing what a tree stores at and below a path leaves nothing of it, and leaves everything else
in place, also in another tree. -/
theorem get?_applyWrites_clearWrites (tree other : Tree) (root path : Path) :
    (other.applyWrites (tree.clearWrites root)).1.get? path =
      if path.startsWith root ∧ tree.contains path then none else other.get? path := by
  split
  next h =>
    refine get?_applyWrites_of_mem other ?_ fun entry hentry _ => ?_
    · exact List.mem_map.2 ⟨(path, none), mem_clearWrites_iff.2 ⟨h.2, h.1, rfl⟩, rfl⟩
    · exact (mem_clearWrites_iff.1 hentry).2.2
  next h =>
    refine get?_applyWrites_of_notMem other fun hmem => h ?_
    obtain ⟨⟨target, value⟩, hentry, rfl⟩ := List.mem_map.1 hmem
    obtain ⟨hcontained, hbelow, -⟩ := mem_clearWrites_iff.1 hentry
    exact ⟨hbelow, hcontained⟩

end DocTree.Tree
