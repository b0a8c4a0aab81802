import DocTree.Proofs.Store.Effects

/-!
# The hierarchy of collections

Whatever is stored below another path has a collection as its parent, so nothing lies below a
document or below a path where nothing is stored. Every mutation that a tree allows keeps this. The
mutations of whole collections need it themselves: a place that is free is empty all the way down,
so nothing is in the way of what is copied there.

## Main definitions

* `Tree.ParentClosed`: everything stored has a collection as its parent.

## Main results

* `Tree.ParentClosed.collection_above`: all paths above a stored one are collections.
* `Tree.ParentClosed.get?_moveCollection`: look-up after moving a collection.
* `Tree.ParentClosed.applyWrites`: mutations keep the hierarchy.
-/

namespace DocTree.Tree

/-- Everything stored at a path of more than one segment has a collection as its parent. -/
def ParentClosed (tree : Tree) : Prop :=
  ∀ path parent, tree.contains path → path.parent? = some parent →
    tree.get? parent = some .collection

variable {tree : Tree} {path : Path}

theorem parentClosed_iff :
    tree.ParentClosed ↔ ∀ entry ∈ tree.entries, ∀ parent ∈ entry.1.parent?,
      tree.get? parent = some .collection := by
  constructor
  · rintro h ⟨path, resource⟩ hentry parent hparent
    refine h path parent ?_ hparent
    rw [PathMap.contains, PathMap.mem_entries_iff.1 hentry, Option.isSome_some]
  · intro h path parent hstored hparent
    obtain ⟨resource, hget⟩ := Option.isSome_iff_exists.1 hstored
    exact h (path, resource) (PathMap.mem_entries_iff.2 hget) parent hparent

instance : Decidable tree.ParentClosed :=
  decidable_of_iff _ parentClosed_iff.symm

theorem contains_of_get? {resource : Resource} (h : tree.get? path = some resource) :
    tree.contains path := by
  rw [PathMap.contains, h, Option.isSome_some]

theorem write_eq_self {value : Option Resource} (h : tree.get? path = value) :
    tree.write path value = tree := by
  refine PathMap.ext_get? fun other => ?_
  rw [get?_write]
  split
  next hother => rw [← hother, h]
  · rfl

namespace ParentClosed

/-! ### What lies above and below -/

/-- All paths above a stored one are collections. -/
theorem collection_above (h : tree.ParentClosed) {above : Path} (hstored : tree.contains path)
    (hbelow : path.startsWith above) (hne : path ≠ above) :
    tree.get? above = some .collection := by
  -- Induction along the chain of parents, which have fewer and fewer segments.
  induction hn : path.segments.length generalizing path with
  | zero => exact absurd (List.length_eq_zero_iff.1 hn) path.segments_ne_nil
  | succ n ih =>
    obtain ⟨parent, hparent, habove⟩ := Path.exists_parent?_of_startsWith hbelow hne
    have hcollection := h path parent hstored hparent
    by_cases heq : parent = above
    · exact heq ▸ hcollection
    · refine ih (contains_of_get? hcollection) habove heq ?_
      have hlength := Path.length_segments_of_parent? hparent
      omega

/-- Nothing lies below a path that holds no collection. -/
theorem get?_below (h : tree.ParentClosed) {other : Path}
    (hno : tree.get? path ≠ some .collection) (hbelow : other.startsWith path)
    (hne : other ≠ path) : tree.get? other = none := by
  cases hother : tree.get? other with
  | none => rfl
  | some resource =>
    exact absurd (h.collection_above (contains_of_get? hother) hbelow hne) hno

/-- A place where nothing is stored is empty all the way down. -/
theorem get?_below_vacant (h : tree.ParentClosed) {other : Path} (hvacant : tree.get? path = none)
    (hbelow : other.startsWith path) : tree.get? other = none := by
  by_cases heq : other = path
  · exact heq ▸ hvacant
  · exact h.get?_below (by simp [hvacant]) hbelow heq

/-! ### Single paths -/

/-- A path that holds no collection can hold anything, if its parent is a collection. -/
theorem write (h : tree.ParentClosed) (hno : tree.get? path ≠ some .collection)
    (hparent : ∀ parent, path.parent? = some parent → tree.get? parent = some .collection)
    (value : Option Resource) : (tree.write path value).ParentClosed := by
  intro other parent hstored hother
  have hlength := Path.length_segments_of_parent? hother
  have hne : path ≠ parent := by
    -- Otherwise something would lie below the path.
    rintro rfl
    have hchild : other ≠ path := by
      rintro rfl
      omega
    have hnone := h.get?_below hno (Path.startsWith_parent hother) hchild
    simp [PathMap.contains, get?_write, Ne.symm hchild, hnone] at hstored
  rw [get?_write, if_neg hne]
  by_cases heq : path = other
  · exact hparent parent (heq ▸ hother)
  · rw [PathMap.contains, get?_write, if_neg heq] at hstored
    exact h other parent hstored hother

theorem write_of_isFree (h : tree.ParentClosed) (hfree : tree.IsFree path) (resource : Resource) :
    (tree.write path (some resource)).ParentClosed :=
  h.write (by simp [hfree.vacant]) hfree.parent _

theorem write_of_document (h : tree.ParentClosed) {content : Content}
    (hdocument : tree.get? path = some (.document content)) (value : Option Resource) :
    (tree.write path value).ParentClosed :=
  h.write (by simp [hdocument]) (fun parent => h path parent (contains_of_get? hdocument)) value

/-! ### Whole collections -/

theorem of_cleared (h : tree.ParentClosed) (root : Path) {after : Tree}
    (hafter : ∀ path, after.get? path = if path.startsWith root then none else tree.get? path) :
    after.ParentClosed := by
  intro path parent hstored hparent
  rw [PathMap.contains, hafter] at hstored
  split at hstored
  · cases hstored
  next hpath =>
    -- What lies outside of the cleared collection has its parent outside.
    have houtside : ¬parent.startsWith root := fun hroot =>
      hpath (Path.startsWith_trans (Path.startsWith_parent hparent) hroot)
    rw [hafter, if_neg houtside]
    exact h path parent hstored hparent

theorem copyCollection (h : tree.ParentClosed) {source destination : Path}
    (hfree : tree.IsFree destination) :
    (tree.applyWrites (tree.copyWrites source destination)).1.ParentClosed := by
  intro path parent hstored hparent
  rw [PathMap.contains, get?_applyWrites_copyWrites] at hstored
  rw [get?_applyWrites_copyWrites]
  cases hmoved : path.relocate? destination source with
  | none =>
    -- The parent of what lies outside of the copy lies outside of it, too.
    have houtside : parent.relocate? destination source = none := by
      refine Option.eq_none_iff_forall_ne_some.2 fun q hq => ?_
      have hbelow := Path.startsWith_trans (Path.startsWith_parent hparent)
        (Path.startsWith_of_relocate?_old hq)
      obtain ⟨r, hr⟩ := Path.exists_relocate? hbelow source
      rw [hmoved] at hr
      cases hr
    rw [hmoved] at hstored
    rw [houtside]
    exact h path parent hstored hparent
  | some origin =>
    have hbelow := Path.startsWith_of_relocate?_old hmoved
    rw [hmoved, Option.bind_some, h.get?_below_vacant hfree.vacant hbelow, Option.or_none]
      at hstored
    by_cases htop : path = destination
    · -- The parent of the destination is not part of the copy.
      subst htop
      rw [hfree.parent parent hparent]
      cases hcopied : (parent.relocate? path source).bind tree.get? with
      | none => rfl
      | some resource =>
        obtain ⟨above, habove, -⟩ := Option.bind_eq_some_iff.1 hcopied
        have hcycle := h.get?_below_vacant hfree.vacant (Path.startsWith_of_relocate?_old habove)
        rw [hfree.parent parent hparent] at hcycle
        cases hcycle
    · -- The parent is copied along.
      obtain ⟨above, habove, hcopied⟩ :=
        Path.parent?_of_relocate? (Path.relocate?_comm.1 hmoved) hparent htop
      rw [Path.relocate?_comm.1 hcopied, Option.bind_some, h origin above hstored habove]
      rfl

/-- After moving a collection, nothing is left of it at the source, and all of it is found at the
destination. -/
theorem get?_moveCollection (h : tree.ParentClosed) {source destination : Path}
    (hstored : tree.get? source = some .collection) (houtside : ¬destination.startsWith source)
    (hfree : tree.IsFree destination) (path : Path) :
    (tree.applyWrites (tree.copyWrites source destination ++ tree.clearWrites source)).1.get? path =
      if path.startsWith source then none
      else ((path.relocate? destination source).bind tree.get?).or (tree.get? path) := by
  rw [fst_applyWrites_append, get?_applyWrites_clearWrites, get?_applyWrites_copyWrites]
  by_cases hsource : path.startsWith source
  · by_cases hcontained : tree.contains path
    · rw [if_pos ⟨hsource, hcontained⟩, if_pos hsource]
    · -- What was not there before is not there now, since nothing is copied below the source.
      have hnone : tree.get? path = none := by
        simpa [PathMap.contains] using hcontained
      have hmoved : path.relocate? destination source = none := by
        refine Option.eq_none_iff_forall_ne_some.2 fun origin horigin => ?_
        have hdestination := Path.startsWith_of_relocate?_old horigin
        rcases Path.startsWith_or_startsWith hsource hdestination with hcycle | hcycle
        · have hvacant := h.get?_below_vacant hfree.vacant hcycle
          rw [hstored] at hvacant
          cases hvacant
        · exact houtside hcycle
      rw [if_neg fun hboth => hcontained hboth.2, if_pos hsource, hmoved, hnone]
      rfl
  · rw [if_neg fun hboth => hsource hboth.1, if_neg hsource]

/-- Mutations keep the hierarchy. -/
theorem applyWrites (h : tree.ParentClosed) {mutation : Mutation} {writes : List Write}
    (hallows : tree.Allows mutation writes) : (tree.applyWrites writes).1.ParentClosed := by
  cases hallows with
  | createCollection hfree => exact h.write_of_isFree hfree _
  | updateCollection hstored =>
    show (tree.write _ _).ParentClosed
    rw [write_eq_self hstored]
    exact h
  | copyCollection hstored houtside hfree => exact h.copyCollection hfree
  | @moveCollection source destination hstored houtside hfree =>
    have hcopied : (tree.applyWrites (tree.copyWrites source destination)).1.ParentClosed :=
      h.copyCollection hfree
    refine hcopied.of_cleared source fun path => ?_
    rw [h.get?_moveCollection hstored houtside hfree, get?_applyWrites_copyWrites]
  | @deleteCollection root hstored =>
    refine h.of_cleared root fun path => ?_
    rw [get?_applyWrites_clearWrites]
    by_cases hcontained : tree.contains path
    · simp [hcontained]
    · have hnone : tree.get? path = none := by
        simpa [PathMap.contains] using hcontained
      simp [hnone]
  | createDocument hfree => exact h.write_of_isFree hfree _
  | updateDocument hstored => exact h.write_of_document hstored _
  | copyDocument hstored hfree => exact h.write_of_isFree hfree _
  | @moveDocument source destination content hstored hfree =>
    -- The source still holds the document when the destination has been written.
    have hkept : (tree.write destination (some (.document content))).get? source =
        some (.document content) := by
      rw [get?_write, if_neg, hstored]
      rintro rfl
      rw [hfree.vacant] at hstored
      cases hstored
    exact (h.write_of_isFree hfree _).write_of_document hkept none
  | deleteDocument hstored => exact h.write_of_document hstored none

end ParentClosed

end DocTree.Tree
