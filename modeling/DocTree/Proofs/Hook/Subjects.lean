import DocTree.Proofs.Hook.Variables
import DocTree.Proofs.Store.Outcomes

/-!
# The resources that hooks are told about

A hook is told about one or two resources of a mutation: through variables if its program runs, as
arguments if a function is called. Both ways name the same resources in the same order. Before the
change the first one is what is going to be changed, and the second one does not exist yet.
Afterwards the first one is what the change has led to, and the second one, the source of a copy or
move, is still there after a copy only.

## Main definitions

* `Mutation.subjects` and `Mutation.call`: what hooks are told about a mutation, in either way.
* `Mutation.handed?`: what the program of a hook finds in its variables.

## Main results

* `Mutation.arguments_call`: the arguments of the call are the resources that the variables name.
* `Tree.Accepts.contains_source_iff` and `Tree.Accepts.not_contains_destination`: what exists
  before a mutation that is accepted.
* `Tree.Allows.map_kind_get?_first` and `Tree.Allows.contains_source_iff`: what exists after it.
* `Store.subjects_stored`: all of this for a mutation that the store has applied.
* `Store.variables_stored`: the same for what a program finds in its variables.
-/

namespace DocTree

namespace Event

/-- Whether the event creates something that has no source. -/
def isCreation : Event → Bool
  | createCollection | createDocument => true
  | _ => false

/-- Whether the event deletes what it concerns. -/
def isDeletion : Event → Bool
  | deleteCollection | deleteDocument => true
  | _ => false

/-- Whether the event leads to another path and leaves its source in place. -/
def isCopy : Event → Bool
  | copyCollection | copyDocument => true
  | _ => false

/-- The kind of resource that the event concerns. -/
def kind (event : Event) : ResourceKind :=
  if event.concernsCollection then .collection else .document

end Event

/-- The resources in order. -/
def Subjects.toList (subjects : Subjects) : List Path :=
  subjects.first :: subjects.second.toList

/-- The value of a path that may be missing names a path exactly if it is this one. -/
theorem Value.ofPath?_eq_uri_iff {path? : Option Path} {path : Path} :
    ofPath? path? = uri path ↔ path? = some path := by
  cases path? <;> simp [ofPath?]

namespace Mutation

/-- The resources that hooks are told about in a phase of a mutation. -/
def subjects (mutation : Mutation) (phase : Phase) : Subjects :=
  .of mutation.event phase mutation.source mutation.destination?

/-- The function that is called in a phase of a mutation. -/
def call (mutation : Mutation) (phase : Phase) : HookCall :=
  .ofEvent mutation.event phase mutation.source mutation.destination?

/-- What the program of a hook is handed under a name in a phase of a mutation. -/
def handed? (mutation : Mutation) (binding : Binding) (phase : Phase) (name : String) :
    Option Value :=
  (Variables.ofEvent binding mutation.event phase mutation.source mutation.destination?).get?
    (binding.stem ++ name)

variable {mutation : Mutation} {destination : Path}

/-- A second resource is named for copies and moves only. -/
theorem isSome_second_subjects (mutation : Mutation) (phase : Phase) :
    (mutation.subjects phase).second.isSome = mutation.event.isTransfer := by
  cases phase <;> cases mutation <;> rfl

/-- After a copy or move the destination comes first. -/
theorem first_subjects_after (mutation : Mutation) :
    (mutation.subjects .after).first = mutation.destination?.getD mutation.source := by
  cases mutation <;> rfl

/-- After a copy or move the source comes second. -/
theorem second_subjects_after (mutation : Mutation) :
    (mutation.subjects .after).second = mutation.destination?.map fun _ => mutation.source := by
  cases mutation <;> rfl

/-- The arguments of the call are the resources that the variables name, in the same order. -/
theorem arguments_call (mutation : Mutation) (phase : Phase) :
    (mutation.call phase).arguments = (mutation.subjects phase).toList.map Value.uri := by
  cases phase <;> cases mutation <;> rfl

theorem destination?_of_isDeletion (h : mutation.event.isDeletion) :
    mutation.destination? = none := by
  cases mutation with
  | deleteCollection | deleteDocument => rfl
  | _ => cases h

/-- A mutation needs a resource of the kind that its event concerns, unless it creates one. -/
theorem sourceKind?_eq (mutation : Mutation) :
    mutation.sourceKind? =
      if mutation.event.isCreation then none else some mutation.event.kind := by
  cases mutation <;> rfl

theorem target?_of_isCreation (h : mutation.event.isCreation) :
    mutation.target? = some mutation.source := by
  cases mutation with
  | createCollection | createDocument => rfl
  | _ => cases h

/-- Where a copy or move leads to, something is created. -/
theorem target?_of_destination? (h : mutation.destination? = some destination) :
    mutation.target? = some destination := by
  cases mutation with
  | copyCollection | moveCollection | copyDocument | moveDocument => exact h
  | _ => cases h

end Mutation

namespace Tree

variable {tree : Tree} {mutation : Mutation} {destination : Path} {writes : List Write}

/-! ### Before the change -/

/-- The source of a mutation is stored, unless the mutation creates it. -/
theorem Accepts.contains_source_iff (h : tree.Accepts mutation) :
    tree.contains mutation.source ↔ ¬mutation.event.isCreation := by
  by_cases hcreates : mutation.event.isCreation
  · have hfree := h.target mutation.source (Mutation.target?_of_isCreation hcreates)
    simp [PathMap.contains, hfree.vacant, hcreates]
  · have hkind := h.source mutation.event.kind (by rw [Mutation.sourceKind?_eq, if_neg hcreates])
    obtain ⟨resource, hstored, -⟩ := Option.map_eq_some_iff.1 hkind
    simp [contains_of_get? hstored, hcreates]

/-- Nothing is stored where a copy or move leads to. -/
theorem Accepts.not_contains_destination (h : tree.Accepts mutation)
    (hdestination : mutation.destination? = some destination) : ¬tree.contains destination := by
  have hfree := h.target destination (Mutation.target?_of_destination? hdestination)
  simp [PathMap.contains, hfree.vacant]

/-! ### After the change -/

theorem get?_write_self (tree : Tree) (path : Path) (value : Option Resource) :
    (tree.write path value).get? path = value := by
  rw [get?_write, if_pos rfl]

namespace Allows

/-- What a mutation has led to is stored, as a resource of the kind that its event concerns. -/
theorem map_kind_get?_first (h : tree.Allows mutation writes)
    (hkept : mutation.event.isDeletion = false) :
    ((tree.applyWrites writes).1.get? (mutation.subjects .after).first).map Resource.kind =
      some mutation.event.kind := by
  cases h with
  | deleteCollection | deleteDocument => cases hkept
  | createCollection | updateCollection | createDocument | updateDocument | copyDocument =>
    exact congrArg _ (get?_write_self tree _ _)
  | @moveDocument source destination _ hstored hfree =>
    show (((tree.write _ _).write _ _).get? destination).map _ = _
    rw [get?_write, if_neg (hfree.ne_of_get? hstored), get?_write_self]
    rfl
  | @copyCollection source destination hstored =>
    show ((tree.applyWrites _).1.get? destination).map _ = _
    rw [get?_applyWrites_copyWrites, Path.relocate?_self, Option.bind_some, hstored]
    rfl
  | @moveCollection source destination hstored houtside =>
    show ((tree.applyWrites _).1.get? destination).map _ = _
    -- The destination does not lie in what is cleared.
    rw [fst_applyWrites_append, get?_applyWrites_clearWrites, if_neg (fun h => houtside h.1),
      get?_applyWrites_copyWrites, Path.relocate?_self, Option.bind_some, hstored]
    rfl

/-- Nothing is left of what a mutation has deleted. -/
theorem not_contains_source (h : tree.Allows mutation writes)
    (hdeleted : mutation.event.isDeletion) :
    ¬(tree.applyWrites writes).1.contains mutation.source := by
  cases h with
  | @deleteCollection path hstored =>
    show ¬(tree.applyWrites _).1.contains path
    rw [PathMap.contains, get?_applyWrites_clearWrites,
      if_pos ⟨Path.startsWith_self path, contains_of_get? hstored⟩]
    simp
  | @deleteDocument path =>
    show ¬(tree.write path none).contains path
    simp [PathMap.contains, get?_write_self]
  | _ => cases hdeleted

/-- The source of a copy or move is still stored exactly after a copy. -/
theorem contains_source_iff (h : tree.Allows mutation writes)
    (hdestination : mutation.destination? = some destination) :
    (tree.applyWrites writes).1.contains mutation.source ↔ mutation.event.isCopy := by
  cases h with
  | @copyCollection source destination hstored =>
    show (tree.applyWrites _).1.contains source ↔ true
    -- Something from further below may have been copied onto the source.
    rw [PathMap.contains, get?_applyWrites_copyWrites, hstored]
    cases (source.relocate? destination source).bind tree.get? <;> simp
  | @moveCollection source destination hstored =>
    show (tree.applyWrites _).1.contains source ↔ false
    rw [PathMap.contains, fst_applyWrites_append, get?_applyWrites_clearWrites,
      if_pos ⟨Path.startsWith_self source, contains_of_get? hstored⟩]
    simp
  | @copyDocument source destination _ hstored hfree =>
    show (tree.write _ _).contains source ↔ true
    rw [PathMap.contains, get?_write, if_neg (Ne.symm (hfree.ne_of_get? hstored)), hstored]
    simp
  | @moveDocument source =>
    show ((tree.write _ _).write source none).contains source ↔ false
    simp [PathMap.contains, get?_write_self]
  | _ => cases hdestination

/-- The second resource is still stored exactly after a copy. -/
theorem contains_second_iff (h : tree.Allows mutation writes) {second : Path}
    (hsecond : (mutation.subjects .after).second = some second) :
    (tree.applyWrites writes).1.contains second ↔ mutation.event.isCopy := by
  rw [Mutation.second_subjects_after, Option.map_eq_some_iff] at hsecond
  obtain ⟨destination, hdestination, rfl⟩ := hsecond
  exact h.contains_source_iff hdestination

/-- What a mutation has led to is stored, unless it was a deletion. -/
theorem contains_first_iff (h : tree.Allows mutation writes) :
    (tree.applyWrites writes).1.contains (mutation.subjects .after).first ↔
      ¬mutation.event.isDeletion := by
  cases hdeleted : mutation.event.isDeletion with
  | false =>
    obtain ⟨resource, hstored, -⟩ := Option.map_eq_some_iff.1 (h.map_kind_get?_first hdeleted)
    simp [contains_of_get? hstored]
  | true =>
    have hfirst : (mutation.subjects .after).first = mutation.source := by
      rw [Mutation.first_subjects_after, Mutation.destination?_of_isDeletion hdeleted]
      rfl
    rw [hfirst]
    simpa using h.not_contains_source hdeleted

end Allows

/-- In a hierarchy, the collection that hooks are told about after a change is stored, unless a
document without a parent was changed. -/
theorem ParentClosed.get?_collection {after : Tree} (hclosed : after.ParentClosed)
    {subjects : Subjects} {event : Event}
    (hstored : (after.get? subjects.first).map Resource.kind = some event.kind) :
    (∃ collection, subjects.collection event = .uri collection ∧
      after.get? collection = some .collection) ∨
    (event.concernsCollection = false ∧ subjects.first.segments.length = 1 ∧
      subjects.collection event = .empty) := by
  unfold Subjects.collection
  cases hevent : event.concernsCollection with
  | true =>
    rw [Event.kind, if_pos hevent, map_kind_eq_collection_iff] at hstored
    exact .inl ⟨subjects.first, rfl, hstored⟩
  | false =>
    cases hparent : subjects.first.parent? with
    | none =>
      have hsegments := Path.parent?_eq_none_iff.1 hparent
      exact .inr ⟨rfl, by simp [hsegments], rfl⟩
    | some parent =>
      obtain ⟨resource, hget, -⟩ := Option.map_eq_some_iff.1 hstored
      exact .inl ⟨parent, rfl, hclosed _ _ (contains_of_get? hget) hparent⟩

end Tree

namespace Store

variable {store after : Store} {transaction : TransactionId} {mutation : Mutation}

/-- The tree accepts a mutation that the store applies, and what the mutation writes is allowed. -/
theorem exists_allows_of_perform (h : store.perform transaction mutation = .ok after) :
    ∃ writes, store.tree.Accepts mutation ∧ store.tree.Allows mutation writes ∧
      after.tree = (store.tree.applyWrites writes).1 := by
  obtain ⟨log, writes, -, hwrites, rfl⟩ := perform_eq_ok_iff.1 h
  have hallows := Tree.writes_eq_ok_iff.1 hwrites
  exact ⟨writes, Tree.exists_allows_iff.1 ⟨writes, hallows⟩, hallows, rfl⟩

/-- Hooks are told about resources that exist. Before a mutation that the store applies, the first
one is stored unless the mutation creates it, and the second one is not stored; afterwards the first
one is stored unless the mutation has deleted it, and the second one exactly after a copy. A second
one is named for copies and moves. A function is called with these resources in this order. In a
hierarchy, the collection named after a change other than a deletion is stored, or it is the empty
sequence for a document at the top. -/
theorem subjects_stored (h : store.perform transaction mutation = .ok after) :
    (store.tree.contains (mutation.subjects .before).first ↔ ¬mutation.event.isCreation) ∧
    (∀ second, (mutation.subjects .before).second = some second →
      ¬store.tree.contains second) ∧
    (after.tree.contains (mutation.subjects .after).first ↔ ¬mutation.event.isDeletion) ∧
    (∀ second, (mutation.subjects .after).second = some second →
      (after.tree.contains second ↔ mutation.event.isCopy)) ∧
    (∀ phase, (mutation.subjects phase).second.isSome = mutation.event.isTransfer ∧
      (mutation.call phase).arguments = (mutation.subjects phase).toList.map Value.uri) ∧
    (after.tree.ParentClosed → ¬mutation.event.isDeletion →
      (∃ collection, (mutation.subjects .after).collection mutation.event = .uri collection ∧
        after.tree.get? collection = some .collection) ∨
      (mutation.event.concernsCollection = false ∧
        (mutation.subjects .after).first.segments.length = 1 ∧
        (mutation.subjects .after).collection mutation.event = .empty)) := by
  obtain ⟨writes, haccepts, hallows, hafter⟩ := exists_allows_of_perform h
  rw [hafter]
  refine ⟨haccepts.contains_source_iff, fun second hsecond => ?_, hallows.contains_first_iff,
    fun second hsecond => hallows.contains_second_iff hsecond,
    fun phase => ⟨mutation.isSome_second_subjects phase, mutation.arguments_call phase⟩,
    fun hclosed hkept => ?_⟩
  · exact haccepts.not_contains_destination hsecond
  · exact hclosed.get?_collection (hallows.map_kind_get?_first (by simpa using hkept))

/-- Hooks that run after a collection has been moved are told about its new place, where it is
stored, and about its old place, where it is not. -/
theorem subjects_stored_neighbours :
    ∃ after, (initial.run neighbours).perform 1
        (.moveCollection (topLevel 'a') (topLevel 'c')) = .ok after ∧
      (initial.run neighbours).tree.contains (topLevel 'a') ∧
      ¬(initial.run neighbours).tree.contains (topLevel 'c') ∧
      after.tree.contains (topLevel 'c') ∧ ¬after.tree.contains (topLevel 'a') ∧
      ((Mutation.moveCollection (topLevel 'a') (topLevel 'c')).call .after).arguments =
        [.uri (topLevel 'c'), .uri (topLevel 'a')] ∧
      after.tree.get? (topLevel 'c') = some .collection := by
  have hisOk : ((initial.run neighbours).perform 1
      (.moveCollection (topLevel 'a') (topLevel 'c'))).isOk := by decide +kernel
  have hperform := perform_of_isOk hisOk
  obtain ⟨hbefore, hvacant, hafter, hleft, hcall, hcollection⟩ := subjects_stored hperform
  refine ⟨_, hperform, hbefore.2 (by decide), hvacant _ rfl, hafter.2 (by decide),
    fun hkept => ?_, (hcall .after).2, ?_⟩
  · -- The source is kept by copies only.
    have hcopy := (hleft _ rfl).1 hkept
    cases hcopy
  · obtain ⟨collection, hnamed, hstored⟩ | ⟨hdocument, -⟩ :=
      hcollection (by decide +kernel) (by decide)
    · cases hnamed
      exact hstored
    · cases hdocument

/-- What the program of a hook finds in its variables about a mutation that the store applies, if
its trigger has no parameters with the names of these variables. Before the change, `uri` names a
resource that is stored unless the mutation creates it, and what `new-uri` names is not stored.
Afterwards, `uri` names a resource that is stored unless the mutation has deleted it, and what
`new-uri` names is stored exactly after a copy; in a hierarchy, `collection` names a collection that
is stored, or it is the empty sequence for a document at the top. -/
theorem variables_stored (h : store.perform transaction mutation = .ok after)
    {declaration : TriggerDeclaration} {path collection : Path} {stem : String} {binding : Binding}
    (hbinding : declaration.bindingFor path collection stem = .ok binding)
    (hfree : ∀ name ∈ ["uri", "new-uri", "collection"], declaration.ownValue? name = none) :
    (∃ first, mutation.handed? binding .before "uri" = some (.uri first) ∧
      (store.tree.contains first ↔ ¬mutation.event.isCreation)) ∧
    (∀ second, mutation.handed? binding .before "new-uri" = some (.uri second) →
      ¬store.tree.contains second) ∧
    (∃ first, mutation.handed? binding .after "uri" = some (.uri first) ∧
      (after.tree.contains first ↔ ¬mutation.event.isDeletion)) ∧
    (∀ second, mutation.handed? binding .after "new-uri" = some (.uri second) →
      (after.tree.contains second ↔ mutation.event.isCopy)) ∧
    (after.tree.ParentClosed → ¬mutation.event.isDeletion →
      (∃ above, mutation.handed? binding .after "collection" = some (.uri above) ∧
        after.tree.get? above = some .collection) ∨
      (mutation.event.concernsCollection = false ∧
        mutation.handed? binding .after "collection" = some .empty)) := by
  -- Without such parameters, the variables have the values that the hook is told.
  have htold : ∀ phase, ∀ name ∈ ["uri", "new-uri", "collection"],
      mutation.handed? binding phase name =
        (mutation.subjects phase).told? mutation.event phase name :=
    fun phase name hname => Variables.get?_ofEvent_of_free hbinding _ _ _ _ (hfree name hname)
  have hfirst : ∀ phase,
      mutation.handed? binding phase "uri" = some (.uri (mutation.subjects phase).first) :=
    fun phase => htold phase "uri" (by simp)
  have hsecond : ∀ phase second,
      mutation.handed? binding phase "new-uri" = some (.uri second) →
      (mutation.subjects phase).second = some second := by
    intro phase second hvalue
    have hsame : some (.ofPath? (mutation.subjects phase).second) = some (Value.uri second) :=
      (htold phase "new-uri" (by simp)).symm.trans hvalue
    exact Value.ofPath?_eq_uri_iff.1 (Option.some.inj hsame)
  have hcollection : mutation.handed? binding .after "collection" =
      some ((mutation.subjects .after).collection mutation.event) :=
    htold .after "collection" (by simp)
  -- So what is known about the resources that it is told about carries over.
  obtain ⟨writes, haccepts, hallows, hafter⟩ := exists_allows_of_perform h
  rw [hafter, hcollection]
  refine ⟨⟨_, hfirst .before, haccepts.contains_source_iff⟩,
    fun second hvalue => haccepts.not_contains_destination (hsecond .before second hvalue),
    ⟨_, hfirst .after, hallows.contains_first_iff⟩,
    fun second hvalue => hallows.contains_second_iff (hsecond .after second hvalue),
    fun hclosed hkept => ?_⟩
  obtain ⟨above, hnamed, hstored⟩ | ⟨hdocument, -, hempty⟩ :=
    hclosed.get?_collection (hallows.map_kind_get?_first (by simpa using hkept))
  · exact .inl ⟨above, congrArg some hnamed, hstored⟩
  · exact .inr ⟨hdocument, congrArg some hempty⟩

end Store

end DocTree
