import DocTree.Proofs.Store.Hierarchy
import DocTree.Proofs.Store.Runs

/-!
# What mutations do

In a tree where everything stored has a collection as its parent, a mutation can be told by what it
requires and by what each path holds afterwards. A tree is seen here as the function that look-up
is, so that the effect of a mutation is a function from what was held to what is held: a moved
collection is looked up at its old place, and the old place is empty. Everything else about
mutations follows from this view, in particular that a move is a copy with the source deleted, and
that a move back restores the tree.

## Main definitions

* `Mutation.sourceKind?` and `Mutation.target?`: what has to be stored at the source, and which path
  has to be free.
* `Tree.Accepts`: what a tree has to hold for a mutation to be accepted.
* `Mutation.outcome`: what each path holds after a mutation.
* `Tree.mutate`: the tree after a mutation, or why it is refused.

## Main results

* `Tree.exists_allows_iff`: the mutations that are accepted are those that a tree allows.
* `Tree.ParentClosed.mutate_eq_ok_iff`: a mutation leads exactly to the tree that its outcome tells.
* `Tree.ParentClosed.mutate_moveCollection` and `Tree.ParentClosed.mutate_moveDocument`: a move is a
  copy followed by the deletion of the source.
* `Tree.ParentClosed.mutate_moveCollection_back` and `Tree.ParentClosed.mutate_moveDocument_back`: a
  move back restores the tree.
* `Store.perform_outcome`: all of this for a mutation that is performed in a transaction.
-/

namespace DocTree

/-- The kind of a resource. -/
def Resource.kind : Resource → ResourceKind
  | collection => .collection
  | document _ => .document

namespace Mutation

/-- The kind of resource that the mutation needs at its source, if it does not create one there. -/
def sourceKind? : Mutation → Option ResourceKind
  | createCollection _ | createDocument _ _ => none
  | updateCollection _ | copyCollection _ _ | moveCollection _ _ | deleteCollection _ =>
    some .collection
  | updateDocument _ _ | copyDocument _ _ | moveDocument _ _ | deleteDocument _ => some .document

/-- The path that the mutation creates something at. -/
def target? : Mutation → Option Path
  | createCollection path | createDocument path _ => some path
  | mutation => mutation.destination?

/-- What each path holds after the mutation, if `held` tells what each path held before. -/
def outcome (held : Path → Option Resource) : Mutation → Path → Option Resource
  | createCollection path, place => if place = path then some .collection else held place
  | updateCollection _, place => held place
  | copyCollection source destination, place =>
    if place.startsWith destination then (place.relocate? destination source).bind held
    else held place
  | moveCollection source destination, place =>
    if place.startsWith destination then (place.relocate? destination source).bind held
    else if place.startsWith source then none
    else held place
  | deleteCollection path, place => if place.startsWith path then none else held place
  | createDocument path content, place =>
    if place = path then some (.document content) else held place
  | updateDocument path content, place =>
    if place = path then some (.document content) else held place
  | copyDocument source destination, place =>
    if place = destination then held source else held place
  | moveDocument source destination, place =>
    if place = destination then held source
    else if place = source then none
    else held place
  | deleteDocument path, place => if place = path then none else held place

end Mutation

namespace Tree

/-! ### Which mutations are accepted -/

/-- What the tree has to hold for a mutation to be accepted. -/
structure Accepts (tree : Tree) (mutation : Mutation) : Prop where
  /-- A resource of the right kind is stored at the source. -/
  source : ∀ kind, mutation.sourceKind? = some kind →
    (tree.get? mutation.source).map Resource.kind = some kind
  /-- A collection is not copied or moved to itself or below itself. -/
  outside : mutation.actsOnCollection → ∀ destination, mutation.destination? = some destination →
    ¬destination.startsWith mutation.source
  /-- Where something is created, nothing is stored yet, and the parent is a collection, unless the
  path has no parent. -/
  target : ∀ path, mutation.target? = some path → tree.IsFree path

variable {tree : Tree} {mutation : Mutation}

theorem map_kind_eq_collection_iff {resource : Option Resource} :
    resource.map Resource.kind = some .collection ↔ resource = some .collection := by
  rcases resource with _ | _ | _ <;> simp [Resource.kind]

theorem map_kind_eq_document_iff {resource : Option Resource} :
    resource.map Resource.kind = some .document ↔
      ∃ content, resource = some (.document content) := by
  rcases resource with _ | _ | _ <;> simp [Resource.kind]

/-- The mutations that a tree accepts are those that it allows. -/
theorem exists_allows_iff : (∃ writes, tree.Allows mutation writes) ↔ tree.Accepts mutation := by
  constructor
  · rintro ⟨writes, hallows⟩
    cases hallows with
    | createCollection hfree | createDocument hfree =>
      exact ⟨nofun, fun _ => nofun, fun _ hpath => Option.some.inj hpath ▸ hfree⟩
    | updateCollection hstored | deleteCollection hstored =>
      exact ⟨fun _ hkind => hkind ▸ map_kind_eq_collection_iff.2 hstored, fun _ => nofun, nofun⟩
    | copyCollection hstored houtside hfree | moveCollection hstored houtside hfree =>
      exact ⟨fun _ hkind => hkind ▸ map_kind_eq_collection_iff.2 hstored,
        fun _ _ hpath => Option.some.inj hpath ▸ houtside,
        fun _ hpath => Option.some.inj hpath ▸ hfree⟩
    | updateDocument hstored | deleteDocument hstored =>
      exact ⟨fun _ hkind => hkind ▸ map_kind_eq_document_iff.2 ⟨_, hstored⟩, nofun, nofun⟩
    | copyDocument hstored hfree | moveDocument hstored hfree =>
      exact ⟨fun _ hkind => hkind ▸ map_kind_eq_document_iff.2 ⟨_, hstored⟩, nofun,
        fun _ hpath => Option.some.inj hpath ▸ hfree⟩
  · intro h
    obtain ⟨hsource, houtside, htarget⟩ := h
    cases mutation with
    | createCollection path => exact ⟨_, .createCollection (htarget _ rfl)⟩
    | updateCollection path =>
      exact ⟨_, .updateCollection (map_kind_eq_collection_iff.1 (hsource _ rfl))⟩
    | copyCollection source destination =>
      exact ⟨_, .copyCollection (map_kind_eq_collection_iff.1 (hsource _ rfl))
        (houtside rfl _ rfl) (htarget _ rfl)⟩
    | moveCollection source destination =>
      exact ⟨_, .moveCollection (map_kind_eq_collection_iff.1 (hsource _ rfl))
        (houtside rfl _ rfl) (htarget _ rfl)⟩
    | deleteCollection path =>
      exact ⟨_, .deleteCollection (map_kind_eq_collection_iff.1 (hsource _ rfl))⟩
    | createDocument path content => exact ⟨_, .createDocument (htarget _ rfl)⟩
    | updateDocument path content =>
      obtain ⟨old, hstored⟩ := map_kind_eq_document_iff.1 (hsource _ rfl)
      exact ⟨_, .updateDocument hstored⟩
    | copyDocument source destination =>
      obtain ⟨content, hstored⟩ := map_kind_eq_document_iff.1 (hsource _ rfl)
      exact ⟨_, .copyDocument hstored (htarget _ rfl)⟩
    | moveDocument source destination =>
      obtain ⟨content, hstored⟩ := map_kind_eq_document_iff.1 (hsource _ rfl)
      exact ⟨_, .moveDocument hstored (htarget _ rfl)⟩
    | deleteDocument path =>
      obtain ⟨content, hstored⟩ := map_kind_eq_document_iff.1 (hsource _ rfl)
      exact ⟨_, .deleteDocument hstored⟩

/-- A free path is none at which something is stored. -/
theorem IsFree.ne_of_get? {free stored : Path} {resource : Resource} (h : tree.IsFree free)
    (hstored : tree.get? stored = some resource) : stored ≠ free := by
  rintro rfl
  rw [h.vacant] at hstored
  cases hstored

/-! ### What each path holds afterwards -/

namespace ParentClosed

variable {source destination : Path}

/-- Nothing lies both at or below a collection and at or below a free place outside of it. -/
theorem not_startsWith_both (h : tree.ParentClosed)
    (hstored : tree.get? source = some .collection) (houtside : ¬destination.startsWith source)
    (hfree : tree.IsFree destination) {place : Path} (hsource : place.startsWith source) :
    ¬place.startsWith destination := by
  intro hdestination
  rcases Path.startsWith_or_startsWith hsource hdestination with hcycle | hcycle
  · have hvacant := h.get?_below_vacant hfree.vacant hcycle
    rw [hstored] at hvacant
    cases hvacant
  · exact houtside hcycle

/-- The writes of a mutation lead to its outcome. -/
theorem get?_applyWrites (h : tree.ParentClosed) {writes : List Write}
    (hallows : tree.Allows mutation writes) (place : Path) :
    (tree.applyWrites writes).1.get? place = mutation.outcome tree.get? place := by
  -- Look-up at the copied places: what is there now comes from the source alone.
  have hcopied : ∀ {source destination : Path}, tree.IsFree destination →
      ((place.relocate? destination source).bind tree.get?).or (tree.get? place) =
        if place.startsWith destination then (place.relocate? destination source).bind tree.get?
        else tree.get? place := by
    intro source destination hfree
    split
    next hbelow => rw [h.get?_below_vacant hfree.vacant hbelow, Option.or_none]
    next hbelow =>
      cases hmoved : place.relocate? destination source with
      | none => rfl
      | some origin => exact absurd (Path.startsWith_of_relocate?_old hmoved) hbelow
  cases hallows with
  | createCollection | createDocument | updateDocument | deleteDocument =>
    show (tree.write _ _).get? place = _
    rw [get?_write]
    simp only [Mutation.outcome, eq_comm]
  | updateCollection hstored =>
    show (tree.write _ _).get? place = tree.get? place
    rw [write_eq_self hstored]
  | copyCollection hstored houtside hfree =>
    rw [get?_applyWrites_copyWrites, hcopied hfree]
    rfl
  | @moveCollection source destination hstored houtside hfree =>
    rw [h.get?_moveCollection hstored houtside hfree, hcopied hfree]
    show _ = if place.startsWith destination then _ else if place.startsWith source then _ else _
    by_cases hsource : place.startsWith source
    · rw [if_pos hsource, if_neg (h.not_startsWith_both hstored houtside hfree hsource),
        if_pos hsource]
    · rw [if_neg hsource, if_neg hsource]
  | @deleteCollection root hstored =>
    rw [get?_applyWrites_clearWrites]
    show _ = if place.startsWith root then none else tree.get? place
    by_cases hcontained : tree.contains place
    · simp [hcontained]
    · have hnone : tree.get? place = none := by
        simpa [PathMap.contains] using hcontained
      simp [hnone]
  | @copyDocument source destination content hstored hfree =>
    show (tree.write _ _).get? place = if place = destination then tree.get? source else _
    rw [get?_write, hstored]
    simp only [eq_comm]
  | @moveDocument source destination content hstored hfree =>
    show ((tree.write _ _).write _ _).get? place =
      if place = destination then tree.get? source else if place = source then none else _
    -- The destination is not the source, which holds the document.
    have hne : source ≠ destination := hfree.ne_of_get? hstored
    rw [get?_write, get?_write, hstored]
    by_cases hsource : source = place
    · subst hsource
      rw [if_pos rfl, if_neg hne, if_pos rfl]
    · rw [if_neg hsource, if_neg (Ne.symm hsource)]
      simp only [eq_comm]

end ParentClosed

/-! ### The tree after a mutation -/

/-- The tree after a mutation, or why it is refused. -/
def mutate (tree : Tree) (mutation : Mutation) : Except StoreError Tree := do
  let writes ← tree.writes mutation
  return (tree.applyWrites writes).1

theorem mutate_eq_ok_iff_exists {after : Tree} :
    tree.mutate mutation = .ok after ↔
      ∃ writes, tree.Allows mutation writes ∧ after = (tree.applyWrites writes).1 := by
  rw [mutate, bind_eq_ok_iff]
  refine exists_congr fun writes => and_congr writes_eq_ok_iff ⟨fun h => ?_, fun h => ?_⟩
  · exact (Except.ok.inj h).symm
  · rw [h]
    rfl

/-- The mutations that are accepted are those that lead to a tree. -/
theorem exists_mutate_iff :
    (∃ after, tree.mutate mutation = .ok after) ↔ tree.Accepts mutation := by
  simp only [← exists_allows_iff, mutate_eq_ok_iff_exists]
  constructor
  · rintro ⟨after, writes, hallows, -⟩
    exact ⟨writes, hallows⟩
  · rintro ⟨writes, hallows⟩
    exact ⟨_, writes, hallows, rfl⟩

namespace ParentClosed

variable {after : Tree}

/-- A mutation leads to a tree exactly if it is accepted and the tree holds what its outcome
tells. -/
theorem mutate_eq_ok_iff (h : tree.ParentClosed) :
    tree.mutate mutation = .ok after ↔
      tree.Accepts mutation ∧ after.get? = mutation.outcome tree.get? := by
  rw [mutate_eq_ok_iff_exists, ← exists_allows_iff]
  constructor
  · rintro ⟨writes, hallows, rfl⟩
    exact ⟨⟨writes, hallows⟩, funext (h.get?_applyWrites hallows)⟩
  · rintro ⟨⟨writes, hallows⟩, hafter⟩
    refine ⟨writes, hallows, PathMap.ext_get? fun place => ?_⟩
    rw [hafter, h.get?_applyWrites hallows]

/-- A mutation leads to a tree in which everything stored has a collection as its parent. -/
theorem mutate (h : tree.ParentClosed) (hmutate : tree.mutate mutation = .ok after) :
    after.ParentClosed := by
  obtain ⟨writes, hallows, rfl⟩ := mutate_eq_ok_iff_exists.1 hmutate
  exact h.applyWrites hallows

end ParentClosed

/-! ### Moves -/

/-- A copy of a collection is refused for the same reason as a move. -/
theorem mutate_copyCollection_eq_error_iff {source destination : Path} {error : StoreError} :
    tree.mutate (.copyCollection source destination) = .error error ↔
      tree.mutate (.moveCollection source destination) = .error error := by
  simp only [Tree.mutate, writes]
  cases tree.requireTransfer source destination <;> simp [bind, Except.bind, pure, Except.pure]

/-- A copy of a document is refused for the same reason as a move. -/
theorem mutate_copyDocument_eq_error_iff {source destination : Path} {error : StoreError} :
    tree.mutate (.copyDocument source destination) = .error error ↔
      tree.mutate (.moveDocument source destination) = .error error := by
  simp only [Tree.mutate, writes]
  cases tree.requireDocument source with
  | error e => simp [bind, Except.bind]
  | ok content =>
    cases tree.requireFree destination <;> simp [bind, Except.bind, pure, Except.pure]

namespace ParentClosed

variable {source destination : Path}

/-- A mutation that is accepted after another one leads to the tree that its outcome tells of the
outcome of the first. -/
theorem mutate_mutate (h : tree.ParentClosed) {first second : Mutation} {between after : Tree}
    (hfirst : tree.mutate first = .ok between) (hsecond : between.Accepts second)
    (hafter : after.get? = second.outcome (first.outcome tree.get?)) :
    between.mutate second = .ok after := by
  rw [← (h.mutate_eq_ok_iff.1 hfirst).2] at hafter
  exact (h.mutate hfirst).mutate_eq_ok_iff.2 ⟨hsecond, hafter⟩

/-- A mutation is the same as two others, one after the other, if it is refused with the first of
them and has the outcome of both otherwise. -/
theorem mutate_eq_bind (h : tree.ParentClosed) {first second whole : Mutation}
    (hrefused : ∀ error, tree.mutate first = .error error → tree.mutate whole = .error error)
    (haccepted : ∀ between, tree.mutate first = .ok between →
      tree.Accepts whole ∧ between.Accepts second ∧
        whole.outcome tree.get? = second.outcome (first.outcome tree.get?)) :
    tree.mutate whole = tree.mutate first >>= fun between => between.mutate second := by
  cases hfirst : tree.mutate first with
  | error error => exact hrefused error hfirst
  | ok between =>
    obtain ⟨hwhole, hsecond, houtcome⟩ := haccepted between hfirst
    obtain ⟨after, hafter⟩ := exists_mutate_iff.2 hwhole
    rw [hafter]
    refine (h.mutate_mutate hfirst hsecond ?_).symm
    rw [(h.mutate_eq_ok_iff.1 hafter).2, houtcome]

/-- Moving a collection is copying it and then deleting the source. -/
theorem mutate_moveCollection (h : tree.ParentClosed) (source destination : Path) :
    tree.mutate (.moveCollection source destination) =
      tree.mutate (.copyCollection source destination) >>= fun copied =>
        copied.mutate (.deleteCollection source) := by
  refine h.mutate_eq_bind (fun _ => mutate_copyCollection_eq_error_iff.1) fun copied hcopy => ?_
  obtain ⟨⟨hsource, houtside, hfree⟩, hcopied⟩ := h.mutate_eq_ok_iff.1 hcopy
  have hstored := map_kind_eq_collection_iff.1 (hsource _ rfl)
  have hapart : ∀ {place : Path}, place.startsWith source → ¬place.startsWith destination :=
    h.not_startsWith_both hstored (houtside rfl _ rfl) (hfree _ rfl)
  -- The source is still there after the copy, so it can be deleted.
  have hkept : copied.get? source = some .collection := by
    rw [hcopied, Mutation.outcome, if_neg (hapart (Path.startsWith_self source))]
    exact hstored
  refine ⟨⟨hsource, houtside, hfree⟩,
    ⟨fun _ hkind => hkind ▸ map_kind_eq_collection_iff.2 hkept, fun _ => nofun, nofun⟩, ?_⟩
  funext place
  simp only [Mutation.outcome]
  by_cases hplace : place.startsWith source
  · rw [if_neg (hapart hplace), if_pos hplace, if_pos hplace]
  · rw [if_neg hplace, if_neg hplace]

/-- Moving a document is copying it and then deleting the source. -/
theorem mutate_moveDocument (h : tree.ParentClosed) (source destination : Path) :
    tree.mutate (.moveDocument source destination) =
      tree.mutate (.copyDocument source destination) >>= fun copied =>
        copied.mutate (.deleteDocument source) := by
  refine h.mutate_eq_bind (fun _ => mutate_copyDocument_eq_error_iff.1) fun copied hcopy => ?_
  obtain ⟨⟨hsource, houtside, hfree⟩, hcopied⟩ := h.mutate_eq_ok_iff.1 hcopy
  obtain ⟨content, hstored⟩ := map_kind_eq_document_iff.1 (hsource _ rfl)
  have hne : source ≠ destination := (hfree _ rfl).ne_of_get? hstored
  have hkept : copied.get? source = some (.document content) := by
    rw [hcopied, Mutation.outcome, if_neg hne]
    exact hstored
  refine ⟨⟨hsource, houtside, hfree⟩,
    ⟨fun _ hkind => hkind ▸ map_kind_eq_document_iff.2 ⟨_, hkept⟩, nofun, nofun⟩, ?_⟩
  funext place
  simp only [Mutation.outcome]
  by_cases hplace : place = source
  · subst hplace
    rw [if_neg hne, if_pos rfl, if_pos rfl]
  · rw [if_neg hplace, if_neg hplace]

/-- A collection that was moved can be moved back, which restores the tree. -/
theorem mutate_moveCollection_back (h : tree.ParentClosed) (source destination : Path) :
    (tree.mutate (.moveCollection source destination) >>= fun moved =>
        moved.mutate (.moveCollection destination source)) =
      (tree.mutate (.moveCollection source destination)).map fun _ => tree := by
  cases hmove : tree.mutate (.moveCollection source destination) with
  | error error => rfl
  | ok moved =>
    obtain ⟨⟨hsource, houtside, hfree⟩, hmoved⟩ := h.mutate_eq_ok_iff.1 hmove
    have hstored : tree.get? source = some .collection :=
      map_kind_eq_collection_iff.1 (hsource _ rfl)
    replace houtside : ¬destination.startsWith source := houtside rfl _ rfl
    replace hfree : tree.IsFree destination := hfree _ rfl
    have hapart : ∀ {place : Path}, place.startsWith source → ¬place.startsWith destination :=
      h.not_startsWith_both hstored houtside hfree
    have hkept : ∀ {place : Path}, ¬place.startsWith destination → ¬place.startsWith source →
        moved.get? place = tree.get? place := by
      intro place hdestination hsource
      rw [hmoved, Mutation.outcome, if_neg hdestination, if_neg hsource]
    have hthere : moved.get? destination = some .collection := by
      rw [hmoved, Mutation.outcome, if_pos (Path.startsWith_self _), Path.relocate?_self]
      exact hstored
    have hvacant : moved.get? source = none := by
      rw [hmoved, Mutation.outcome, if_neg (hapart (Path.startsWith_self _)),
        if_pos (Path.startsWith_self _)]
    -- The parent of the source has not moved: it lies above the source, and not at the destination.
    have hparent : ∀ parent, source.parent? = some parent →
        moved.get? parent = some .collection := by
      intro parent hparent
      have habove : ¬parent.startsWith destination := fun hbelow =>
        hapart (Path.startsWith_self source)
          (Path.startsWith_trans (Path.startsWith_parent hparent) hbelow)
      rw [hkept habove (Path.not_startsWith_of_parent? hparent)]
      exact h source parent (contains_of_get? hstored) hparent
    refine h.mutate_mutate hmove ⟨?_, ?_, ?_⟩ ?_
    · exact fun _ hkind => hkind ▸ map_kind_eq_collection_iff.2 hthere
    · exact fun _ _ hpath => Option.some.inj hpath ▸ hapart (Path.startsWith_self source)
    · exact fun _ hpath => Option.some.inj hpath ▸ ⟨hvacant, hparent⟩
    · funext place
      rw [← hmoved, Mutation.outcome]
      split
      next hplace =>
        -- What is moved back is found where it was moved to.
        obtain ⟨there, hthere⟩ := Path.exists_relocate? hplace destination
        rw [hthere, Option.bind_some, hmoved, Mutation.outcome,
          if_pos (Path.startsWith_of_relocate? hthere), Path.relocate?_comm.1 hthere,
          Option.bind_some]
      next hplace =>
        split
        next hdestination => exact h.get?_below_vacant hfree.vacant hdestination
        next hdestination => rw [hkept hdestination hplace]

/-- A document that was moved can be moved back, which restores the tree. -/
theorem mutate_moveDocument_back (h : tree.ParentClosed) (source destination : Path) :
    (tree.mutate (.moveDocument source destination) >>= fun moved =>
        moved.mutate (.moveDocument destination source)) =
      (tree.mutate (.moveDocument source destination)).map fun _ => tree := by
  cases hmove : tree.mutate (.moveDocument source destination) with
  | error error => rfl
  | ok moved =>
    obtain ⟨⟨hsource, -, hfree⟩, hmoved⟩ := h.mutate_eq_ok_iff.1 hmove
    obtain ⟨content, hstored⟩ := map_kind_eq_document_iff.1 (hsource _ rfl)
    replace hstored : tree.get? source = some (.document content) := hstored
    replace hfree : tree.IsFree destination := hfree _ rfl
    have hne : source ≠ destination := hfree.ne_of_get? hstored
    have hkept : ∀ {place : Path}, place ≠ destination → place ≠ source →
        moved.get? place = tree.get? place := by
      intro place hdestination hsource
      rw [hmoved, Mutation.outcome, if_neg hdestination, if_neg hsource]
    have hthere : moved.get? destination = some (.document content) := by
      rw [hmoved, Mutation.outcome, if_pos rfl, hstored]
    have hvacant : moved.get? source = none := by
      rw [hmoved, Mutation.outcome, if_neg hne, if_pos rfl]
    have hparent : ∀ parent, source.parent? = some parent →
        moved.get? parent = some .collection := by
      intro parent hparent
      have hcollection := h source parent (contains_of_get? hstored) hparent
      rw [hkept (hfree.ne_of_get? hcollection) (Path.ne_of_parent? hparent), hcollection]
    refine h.mutate_mutate hmove ⟨?_, nofun, ?_⟩ ?_
    · exact fun _ hkind => hkind ▸ map_kind_eq_document_iff.2 ⟨_, hthere⟩
    · exact fun _ hpath => Option.some.inj hpath ▸ ⟨hvacant, hparent⟩
    · funext place
      rw [← hmoved, Mutation.outcome]
      split
      next hplace => rw [hplace, hthere, hstored]
      next hplace =>
        split
        next hdestination => rw [hdestination, hfree.vacant]
        next hdestination => rw [hkept hdestination hplace]

end ParentClosed

end Tree

/-! ### Mutations performed in a transaction -/

namespace Store

variable {store : Store} {transaction : TransactionId}

/-- In an active transaction, a mutation has the effect on the tree that it has by itself. -/
theorem map_tree_perform (hactive : store.status? transaction = some .active)
    (mutation : Mutation) :
    (store.perform transaction mutation).map Store.tree = store.tree.mutate mutation := by
  obtain ⟨log, hlog⟩ := status?_eq_active_iff.1 hactive
  rw [perform, hlog, Tree.mutate]
  show Except.map _ (store.tree.writes mutation >>= _) = _
  cases store.tree.writes mutation <;> rfl

/-- A transaction stays active, so the same holds of two mutations, one after the other. -/
theorem map_tree_perform_bind (hactive : store.status? transaction = some .active)
    (first second : Mutation) :
    (store.perform transaction first >>= fun between =>
        between.perform transaction second).map Store.tree =
      store.tree.mutate first >>= fun between => between.mutate second := by
  rw [← map_tree_perform hactive]
  cases hfirst : store.perform transaction first with
  | error error => rfl
  | ok between => exact map_tree_perform (active_of_perform hfirst hactive) second

/-- A mutation performed in an active transaction succeeds exactly if the tree accepts it. Then each
path holds what the outcome of the mutation tells; otherwise the store stays as it is, with its
tree, its transactions and its journal. A move is a copy followed by the deletion of the source, and
a move back restores the tree. -/
theorem perform_outcome (hclosed : store.tree.ParentClosed)
    (hactive : store.status? transaction = some .active) (mutation : Mutation) :
    ((∃ after, store.perform transaction mutation = .ok after) ↔ store.tree.Accepts mutation) ∧
    (∀ after, store.perform transaction mutation = .ok after →
      ∀ place, after.tree.get? place = mutation.outcome store.tree.get? place) ∧
    (∀ error, (store.respond (.perform transaction mutation)).1 = .error error →
      (store.respond (.perform transaction mutation)).2 = store) ∧
    ∀ source destination,
      (store.perform transaction (.moveCollection source destination)).map tree =
        (store.perform transaction (.copyCollection source destination) >>= fun copied =>
          copied.perform transaction (.deleteCollection source)).map tree ∧
      (store.perform transaction (.moveDocument source destination)).map tree =
        (store.perform transaction (.copyDocument source destination) >>= fun copied =>
          copied.perform transaction (.deleteDocument source)).map tree ∧
      (store.perform transaction (.moveCollection source destination) >>= fun moved =>
          moved.perform transaction (.moveCollection destination source)).map tree =
        (store.perform transaction (.moveCollection source destination)).map (fun _ => store.tree) ∧
      (store.perform transaction (.moveDocument source destination) >>= fun moved =>
          moved.perform transaction (.moveDocument destination source)).map tree =
        (store.perform transaction (.moveDocument source destination)).map fun _ => store.tree := by
  refine ⟨?_, fun after hafter => ?_, fun error herror => ?_,
    fun source destination => ⟨?_, ?_, ?_, ?_⟩⟩
  · rw [← Tree.exists_mutate_iff, ← map_tree_perform hactive]
    cases store.perform transaction mutation <;> simp [Except.map]
  · have hmutate := map_tree_perform hactive mutation
    rw [hafter] at hmutate
    exact congrFun (hclosed.mutate_eq_ok_iff.1 hmutate.symm).2
  · rw [respond] at herror ⊢
    cases hperform : store.perform transaction mutation with
    | ok after =>
      rw [hperform] at herror
      cases herror
    | error error => rfl
  · rw [map_tree_perform hactive, map_tree_perform_bind hactive,
      hclosed.mutate_moveCollection]
  · rw [map_tree_perform hactive, map_tree_perform_bind hactive, hclosed.mutate_moveDocument]
  · rw [map_tree_perform_bind hactive, hclosed.mutate_moveCollection_back,
      ← map_tree_perform hactive]
    cases store.perform transaction (.moveCollection source destination) <;> rfl
  · rw [map_tree_perform_bind hactive, hclosed.mutate_moveDocument_back,
      ← map_tree_perform hactive]
    cases store.perform transaction (.moveDocument source destination) <;> rfl

/-- A path below the root collection whose text starts with that of another one. -/
def beside : Path :=
  (Path.root.child? ['a', 'b']).getD .root

/-- Two collections with a document each are created; the name of the one starts with that of the
other. -/
def neighbours : List Request :=
  [.beginTransaction,
    .perform 1 (.createCollection (topLevel 'a')),
    .perform 1 (.createDocument ((topLevel 'a').append .root) ⟨#[1]⟩),
    .perform 1 (.createCollection beside),
    .perform 1 (.createDocument (beside.append .root) ⟨#[2]⟩)]

/-- One of the collections can be moved; its document moves with it, and the other one stays. -/
theorem perform_outcome_neighbours :
    (initial.run neighbours).tree.ParentClosed ∧
    (initial.run neighbours).status? 1 = some .active ∧
    (initial.run neighbours).tree.Accepts (.moveCollection (topLevel 'a') (topLevel 'c')) ∧
    ∃ after, (initial.run neighbours).perform 1
        (.moveCollection (topLevel 'a') (topLevel 'c')) = .ok after ∧
      after.tree.get? ((topLevel 'c').append .root) = some (.document ⟨#[1]⟩) ∧
      after.tree.get? ((topLevel 'a').append .root) = none ∧
      after.tree.get? (beside.append .root) = some (.document ⟨#[2]⟩) := by
  have hclosed : (initial.run neighbours).tree.ParentClosed := by decide +kernel
  have hactive : (initial.run neighbours).status? 1 = some .active := by decide +kernel
  obtain ⟨haccepts, houtcome, -⟩ := perform_outcome hclosed hactive
    (.moveCollection (topLevel 'a') (topLevel 'c'))
  have hisOk : ((initial.run neighbours).perform 1
      (.moveCollection (topLevel 'a') (topLevel 'c'))).isOk := by decide +kernel
  have hperform := perform_of_isOk hisOk
  refine ⟨hclosed, hactive, haccepts.1 ⟨_, hperform⟩, _, hperform, ?_, ?_, ?_⟩
  · rw [houtcome _ hperform]
    decide +kernel
  · rw [houtcome _ hperform]
    decide +kernel
  · rw [houtcome _ hperform]
    decide +kernel

end Store

end DocTree
