import DocTree.Proofs.Config.Resolving
import DocTree.Proofs.Store.Hierarchy

/-!
# Creating the configuration root

In a closed hierarchy, what is missing of a path and the paths above it is missing from some level
downwards. So the missing levels can be created one after another, each below the one before, unless
the lowest level that is there is above the path and holds a document.

Seeing to the configuration root is therefore all or nothing. It fails exactly if a document is in
the way, and then everything is taken back and the next attempt starts afresh. Once it has
succeeded, the store is left alone, whatever happens to the configuration root afterwards.

## Main definitions

* `Tree.Obstructs`: a document lies above a path.
* `Tree.missing`: the levels of a path that are not there.
* `Tree.Adds`: a tree with some collections added.
* `Store.Spends`: a single transaction was opened, created some collections, and has ended.
* `Resolver.Act` and `Resolver.actAll`: what can happen to a resolver and the store it reads.

## Main results

* `Resolver.creates_missing`: the missing levels can be created unless a document is in the way.
* `Resolver.ensureRoot_eq_ok_iff`: when seeing to the configuration root succeeds.
* `Resolver.rootReady_actAll`: once it has succeeded, this is never forgotten.
* `Resolver.ensureRoot_all_or_nothing`: what a success and a failure leave behind.
-/

namespace DocTree

/-! ### Missing levels -/

namespace Tree

variable {tree after : Tree} {path parent : Path} {levels : List Path}

/-- A document lies above a path. -/
def Obstructs (tree : Tree) (path : Path) : Prop :=
  ∃ above content, path.startsWith above ∧ above ≠ path ∧
    tree.get? above = some (.document content)

/-- The levels of a path that are not there, outermost first. -/
def missing (tree : Tree) (path : Path) : List Path :=
  path.ancestors.filter fun level => !tree.contains level

/-- The second tree is the first one with collections added at some paths. -/
def Adds (tree : Tree) (levels : List Path) (after : Tree) : Prop :=
  ∀ place, after.get? place = if place ∈ levels then some .collection else tree.get? place

theorem mem_missing_iff {level : Path} :
    level ∈ tree.missing path ↔ path.startsWith level ∧ ¬tree.contains level := by
  rw [missing, List.mem_filter, Path.mem_ancestors_iff, Bool.not_eq_true', Bool.not_eq_true]

/-- What is missing of a path that is not there comes after what is missing of its parent. -/
theorem missing_eq_append (h : ¬tree.contains path) :
    tree.missing path = (path.parent?.map tree.missing).getD [] ++ [path] := by
  rw [Bool.not_eq_true] at h
  rw [missing, Path.ancestors_eq, List.filter_append, List.filter_cons, h]
  cases path.parent? <;> rfl

/-- Nothing is missing of a path that is there. -/
theorem ParentClosed.missing_eq_nil (h : tree.ParentClosed) (hstored : tree.contains path) :
    tree.missing path = [] := by
  refine List.eq_nil_iff_forall_not_mem.2 fun level hlevel => ?_
  obtain ⟨hbelow, habsent⟩ := mem_missing_iff.1 hlevel
  by_cases heq : path = level
  · exact habsent (heq ▸ hstored)
  · exact habsent (contains_of_get? (h.collection_above hstored hbelow heq))

theorem ParentClosed.not_obstructs (h : tree.ParentClosed) (hstored : tree.contains path) :
    ¬tree.Obstructs path := by
  rintro ⟨above, content, hbelow, hne, hdocument⟩
  rw [h.collection_above hstored hbelow (Ne.symm hne)] at hdocument
  cases hdocument

theorem not_obstructs_of_parent?_eq_none (h : path.parent? = none) : ¬tree.Obstructs path := by
  rintro ⟨above, content, hbelow, hne, -⟩
  obtain ⟨parent, hparent, -⟩ := Path.exists_parent?_of_startsWith hbelow (Ne.symm hne)
  rw [h] at hparent
  cases hparent

/-- What is in the way of a path is its parent, or in the way of its parent. -/
theorem obstructs_iff_of_parent? (h : path.parent? = some parent) :
    tree.Obstructs path ↔
      (∃ content, tree.get? parent = some (.document content)) ∨ tree.Obstructs parent := by
  constructor
  · rintro ⟨above, content, hbelow, hne, hdocument⟩
    obtain ⟨found, hfound, habove⟩ := Path.exists_parent?_of_startsWith hbelow (Ne.symm hne)
    cases h.symm.trans hfound
    by_cases heq : above = parent
    · exact .inl ⟨content, heq ▸ hdocument⟩
    · exact .inr ⟨above, content, habove, heq, hdocument⟩
  · rintro (⟨content, hdocument⟩ | ⟨above, content, hbelow, -, hdocument⟩)
    · exact ⟨parent, content, Path.startsWith_parent h, Path.ne_of_parent? h, hdocument⟩
    · refine ⟨above, content, Path.startsWith_trans (Path.startsWith_parent h) hbelow, ?_,
        hdocument⟩
      rintro rfl
      exact Path.not_startsWith_of_parent? h hbelow

theorem adds_nil (tree : Tree) : tree.Adds [] tree :=
  fun _ => (if_neg List.not_mem_nil).symm

theorem Adds.write (h : tree.Adds levels after) (path : Path) :
    tree.Adds (levels ++ [path]) (after.write path (some .collection)) := by
  intro place
  rw [get?_write, h place]
  by_cases hplace : path = place
  · rw [if_pos hplace, if_pos (List.mem_append_right _ (List.mem_singleton.2 hplace.symm))]
  · rw [if_neg hplace]
    simp only [List.mem_append, List.mem_singleton, Ne.symm hplace, or_false]

/-- With the missing levels of its parent added, a path that is not there is free, unless its parent
is a document. -/
theorem Adds.isFree_iff (h : tree.Adds (tree.missing parent) after) (habsent : ¬tree.contains path)
    (hparent : path.parent? = some parent) :
    after.IsFree path ↔ ¬∃ content, tree.get? parent = some (.document content) := by
  have hvacant : after.get? path = none := by
    have hlevel : path ∉ tree.missing parent := fun hmem =>
      Path.not_startsWith_of_parent? hparent (mem_missing_iff.1 hmem).1
    rw [h path, if_neg hlevel]
    simpa [PathMap.contains] using habsent
  have hheld : after.get? parent = some ((tree.get? parent).getD .collection) := by
    rw [h parent]
    cases hget : tree.get? parent with
    | none =>
      have hmissing : ¬tree.contains parent := by simp [PathMap.contains, hget]
      rw [if_pos (mem_missing_iff.2 ⟨Path.startsWith_self _, hmissing⟩)]
      rfl
    | some resource =>
      rw [if_neg fun hlevel => (mem_missing_iff.1 hlevel).2 (contains_of_get? hget)]
      rfl
  constructor
  · rintro hfree ⟨content, hdocument⟩
    rw [hfree.parent parent hparent, hdocument] at hheld
    cases hheld
  · intro hno
    refine ⟨hvacant, fun other hother => ?_⟩
    cases hparent.symm.trans hother
    rw [hheld]
    cases hget : tree.get? parent with
    | none => rfl
    | some resource =>
      cases resource with
      | collection => rfl
      | document content => exact absurd ⟨content, hget⟩ hno

end Tree

/-! ### Creating them -/

namespace Resolver

variable {store after : Store} {transaction : TransactionId} {log : TransactionLog} {path : Path}
  {paths : List Path}

theorem createCollections_append (transaction : TransactionId) (store : Store)
    (front back : List Path) :
    createCollections transaction store (front ++ back) =
      match createCollections transaction store front with
      | (.ok (), after) => createCollections transaction after back
      | (.error error, after) => (.error error, after) := by
  induction front generalizing store with
  | nil => rfl
  | cons first rest ih =>
    rw [List.cons_append, createCollections, createCollections]
    cases store.perform transaction (.createCollection first) with
    | ok after => exact ih after
    | error error => rfl

/-- A collection can be created at a free path. -/
theorem createCollections_of_isFree (hlog : store.requireActive transaction = .ok log)
    (hfree : store.tree.IsFree path) :
    ∃ after, createCollections transaction store [path] = (.ok (), after) ∧
      after.tree = store.tree.write path (some .collection) := by
  have hperform := Store.perform_eq_ok_iff.2
    ⟨log, _, hlog, Tree.writes_eq_ok_iff.2 (.createCollection hfree), rfl⟩
  have hcreated : createCollections transaction store [path] =
      (.ok (), store.applied transaction (.createCollection path) log
        [(path, some .collection)]) := by
    rw [createCollections, hperform]
    rfl
  exact ⟨_, hcreated, rfl⟩

theorem createCollections_of_not_isFree (transaction : TransactionId)
    (h : ¬store.tree.IsFree path) :
    ∃ error, createCollections transaction store [path] = (.error error, store) := by
  rw [createCollections]
  cases hperform : store.perform transaction (.createCollection path) with
  | error error => exact ⟨error, rfl⟩
  | ok after =>
    obtain ⟨-, writes, -, hwrites, -⟩ := Store.perform_eq_ok_iff.1 hperform
    cases Tree.writes_eq_ok_iff.1 hwrites with
    | createCollection hfree => exact absurd hfree h

/-- The ways in which creating the missing levels of a path can go. -/
inductive Creates (store : Store) (path : Path) : Except StoreError Unit × Store → Prop where
  /-- Nothing is in the way, and they are added. -/
  | created {after : Store} (hfree : ¬store.tree.Obstructs path)
      (hadds : store.tree.Adds (store.tree.missing path) after.tree) :
      Creates store path (.ok (), after)
  /-- A document is in the way. -/
  | refused {error : StoreError} {after : Store} (hobstructs : store.tree.Obstructs path) :
      Creates store path (.error error, after)

/-- If nothing is missing above a path, or it was created, then the path is next. -/
theorem Creates.next {parent : Path} (habsent : ¬store.tree.contains path)
    (hparent : path.parent? = some parent) (hlog : store.requireActive transaction = .ok log)
    (h : Creates store parent
      (createCollections transaction store (store.tree.missing parent))) :
    Creates store path (createCollections transaction store (store.tree.missing path)) := by
  obtain ⟨⟨next, hnext⟩, -⟩ := createCollections_spec (store.tree.missing parent) hlog
  have hmissing : store.tree.missing path = store.tree.missing parent ++ [path] := by
    rw [Tree.missing_eq_append habsent, hparent]
    rfl
  rw [hmissing, createCollections_append]
  generalize createCollections transaction store (store.tree.missing parent) = result
    at h hnext
  cases h with
  | @created between hfree hadds =>
    -- By now the parent is a collection, unless it was a document all along.
    by_cases hdocument : ∃ content, store.tree.get? parent = some (.document content)
    · obtain ⟨error, herror⟩ := createCollections_of_not_isFree transaction
        fun hfree => (hadds.isFree_iff habsent hparent).1 hfree hdocument
      dsimp only
      rw [herror]
      exact .refused ((Tree.obstructs_iff_of_parent? hparent).2 (.inl hdocument))
    · obtain ⟨after, hcreated, htree⟩ :=
        createCollections_of_isFree hnext ((hadds.isFree_iff habsent hparent).2 hdocument)
      dsimp only
      rw [hcreated]
      have hclear : ¬store.tree.Obstructs path :=
        mt (Tree.obstructs_iff_of_parent? hparent).1 (not_or.2 ⟨hdocument, hfree⟩)
      refine .created hclear ?_
      rw [hmissing, htree]
      exact hadds.write path
  | refused hobstructs =>
    exact .refused ((Tree.obstructs_iff_of_parent? hparent).2 (.inr hobstructs))

/-- The missing levels of a path can be created unless a document is in the way. -/
theorem creates_missing (hclosed : store.tree.ParentClosed)
    (hlog : store.requireActive transaction = .ok log) (path : Path) :
    Creates store path (createCollections transaction store (store.tree.missing path)) := by
  -- Along the chain of parents, which have fewer and fewer segments. It ends at the first level
  -- that is there, or at a path without a parent.
  induction hn : path.segments.length generalizing path with
  | zero => exact absurd (List.length_eq_zero_iff.1 hn) path.segments_ne_nil
  | succ n ih =>
    by_cases hstored : store.tree.contains path
    · have hmissing := hclosed.missing_eq_nil hstored
      rw [hmissing]
      exact .created (hclosed.not_obstructs hstored) (hmissing ▸ store.tree.adds_nil)
    · cases hparent : path.parent? with
      | none =>
        have hmissing : store.tree.missing path = [path] := by
          rw [Tree.missing_eq_append hstored, hparent]
          rfl
        have hfree : store.tree.IsFree path := by
          refine ⟨by simpa [PathMap.contains] using hstored, fun parent h => ?_⟩
          rw [hparent] at h
          cases h
        obtain ⟨after, hcreated, htree⟩ := createCollections_of_isFree hlog hfree
        rw [hmissing, hcreated]
        refine .created (Tree.not_obstructs_of_parent?_eq_none hparent) ?_
        rw [hmissing, htree]
        exact store.tree.adds_nil.write path
      | some parent =>
        have hlength := Path.length_segments_of_parent? hparent
        exact .next hstored hparent hlog (ih parent (by omega))

theorem journal_of_createCollections
    (h : createCollections transaction store paths = (.ok (), after)) :
    after.journal =
      store.journal ++ paths.map fun path => ⟨transaction, .createCollection path⟩ := by
  induction paths generalizing store with
  | nil =>
    cases h
    exact (List.append_nil _).symm
  | cons first rest ih =>
    rw [createCollections] at h
    split at h
    next between hperform =>
      rw [ih h, Store.journal_of_perform hperform, List.append_assoc]
      rfl
    next => cases h

end Resolver

/-! ### Seeing to the configuration root -/

/-- Between two stores, a single transaction was opened, created collections at some paths, and has
ended. Its work in the tree is not looked at. -/
structure Store.Spends (store : Store) (status : TransactionStatus) (created : List Path)
    (after : Store) : Prop where
  /-- The transaction has ended in this way. -/
  status_eq : after.status? store.beginTransaction.1 = some status
  /-- No other transaction is concerned. -/
  get?_of_ne : ∀ other, other ≠ store.beginTransaction.1 →
    after.transactions.get? other = store.transactions.get? other
  /-- The transaction applied nothing else. -/
  journal_eq : after.journal = store.journal ++ created.map fun path =>
    ⟨store.beginTransaction.1, .createCollection path⟩

namespace Resolver

variable {settings : Settings} {resolver : Resolver} {store after : Store} {paths : List Path}

/-- Whoever ends the transaction in which collections were created has spent this transaction
only. -/
theorem spends_of_createCollections {result : Except StoreError Unit} {created : List Path}
    (hresult : createCollections store.beginTransaction.1 store.beginTransaction.2 paths =
      (result, after))
    (hjournal : after.journal = store.journal ++ created.map fun path =>
      ⟨store.beginTransaction.1, .createCollection path⟩)
    (status : TransactionStatus) (tree : Tree) :
    store.Spends status created { after with
      tree
      transactions := after.transactions.set store.beginTransaction.1 ⟨status, []⟩ } where
  status_eq := by
    rw [Store.status?, Table.get?_set, if_pos rfl]
    rfl
  get?_of_ne other hother := by
    have hcreated := (createCollections_spec paths store.requireActive_beginTransaction).2 other
      hother
    rw [hresult] at hcreated
    rw [Table.get?_set, if_neg (Ne.symm hother), hcreated]
    exact (Table.get?_set ..).trans (if_neg (Ne.symm hother))
  journal_eq := hjournal

/-- Undoing what was created leads back. -/
theorem undo_of_createCollections {result : Except StoreError Unit} {log : TransactionLog}
    (hresult : createCollections store.beginTransaction.1 store.beginTransaction.2 paths =
      (result, after))
    (hlog : after.requireActive store.beginTransaction.1 = .ok log) :
    after.tree.undo log.replaced = store.tree := by
  have hundoes : after.UndoesTo store.tree store.beginTransaction.1 := by
    have hkept := createCollections_invariant
      (Store.keptByPerform_undoesTo store.tree store.beginTransaction.1) paths
      store.undoesTo_beginTransaction
    rwa [hresult] at hkept
  obtain ⟨found, hfound, htree⟩ := hundoes
  rw [hlog] at hfound
  cases hfound
  exact htree

/-- The ways in which the first attempt to see to the configuration root can go. -/
inductive Attempts (settings : Settings) (resolver : Resolver) (store : Store) :
    Except ConfigError Unit × Resolver × Store → Prop where
  /-- Nothing is in the way: what is missing is added, in one transaction if anything is. -/
  | done {after : Store} (hfree : ¬store.tree.Obstructs settings.configRoot)
      (hadds : store.tree.Adds (store.tree.missing settings.configRoot) after.tree)
      (hwritten : after = store ∨
        store.Spends .committed (store.tree.missing settings.configRoot) after) :
      Attempts settings resolver store (.ok (), { resolver with rootReady := true }, after)
  /-- A document is in the way: all is taken back. -/
  | undone {error : StoreError} {after : Store} {created : List Path}
      (hobstructs : store.tree.Obstructs settings.configRoot) (htree : after.tree = store.tree)
      (hwritten : store.Spends .aborted created after) :
      Attempts settings resolver store (.error (.storage error), resolver, after)

theorem attempts_ensureRoot (settings : Settings) (hclosed : store.tree.ParentClosed)
    (hnew : resolver.rootReady = false) :
    Attempts settings resolver store (resolver.ensureRoot settings store) := by
  have hbegun : store.beginTransaction.2.tree.ParentClosed := hclosed
  have hcreates : Creates store.beginTransaction.2 settings.configRoot
      (createCollections store.beginTransaction.1 store.beginTransaction.2
        (missingLevels settings store)) :=
    creates_missing hbegun store.requireActive_beginTransaction settings.configRoot
  have hensures := ensuresRoot_ensureRoot settings resolver store
  generalize resolver.ensureRoot settings store = ensured at hensures
  cases hensures with
  | ready hready =>
    rw [hnew] at hready
    cases hready
  | present _ hmissing =>
    -- Creating nothing always succeeds.
    rw [hmissing] at hcreates
    change Creates _ _ (.ok (), _) at hcreates
    cases hcreates with
    | created hfree hadds => exact .done hfree hadds (.inl rfl)
  | created _ _ hcreated hlog =>
    have hjournal := journal_of_createCollections hcreated
    rw [hcreated] at hcreates
    cases hcreates with
    | created hfree hadds =>
      exact .done hfree hadds
        (.inr (spends_of_createCollections hcreated hjournal .committed _))
  | refused _ _ hrefused hlog =>
    rw [hrefused] at hcreates
    cases hcreates with
    | refused hobstructs =>
      obtain ⟨created, hcreated⟩ := journal_createCollections store.beginTransaction.1
        store.beginTransaction.2 (missingLevels settings store)
      rw [hrefused] at hcreated
      exact .undone hobstructs (undo_of_createCollections hrefused hlog)
        (spends_of_createCollections hrefused hcreated .aborted _)

/-- Seeing to the configuration root succeeds unless a document is in the way. -/
theorem ensureRoot_eq_ok_iff (settings : Settings) (hclosed : store.tree.ParentClosed)
    (hnew : resolver.rootReady = false) :
    (resolver.ensureRoot settings store).1 = .ok () ↔
      ¬store.tree.Obstructs settings.configRoot := by
  have hattempts := attempts_ensureRoot settings hclosed hnew
  generalize resolver.ensureRoot settings store = ensured at hattempts ⊢
  cases hattempts with
  | done hfree => exact iff_of_true rfl hfree
  | undone hobstructs => exact iff_of_false nofun fun hfree => hfree hobstructs

/-! ### Afterwards -/

/-- What can happen to a resolver, or to the store that it reads. -/
inductive Act where
  /-- Others change the store, in whatever way. -/
  | storeChanges (store : Store)
  /-- The configuration root is seen to. -/
  | ensureRoot
  /-- The configuration of a collection is resolved. -/
  | resolve (collection : Path)
  /-- What is cached at and below a path is dropped. -/
  | invalidate (path : Path)
  /-- What is cached is dropped as a change at two paths makes it necessary. -/
  | invalidateFor (source : Path) (destination : Option Path)

/-- A resolver and its store after an act. -/
def act (settings : Settings) (state : Resolver × Store) : Act → Resolver × Store
  | .storeChanges store => (state.1, store)
  | .ensureRoot => (state.1.ensureRoot settings state.2).2
  | .resolve collection => (state.1.resolve settings state.2 collection).2
  | .invalidate path => ((state.1.invalidate path).2, state.2)
  | .invalidateFor source destination =>
    ((state.1.invalidateFor settings source destination).2, state.2)

/-- A resolver and its store after several acts. -/
def actAll (settings : Settings) (state : Resolver × Store) (acts : List Act) :
    Resolver × Store :=
  acts.foldl (act settings) state

variable {state : Resolver × Store}

theorem rootReady_act (h : state.1.rootReady = true) (a : Act) :
    (act settings state a).1.rootReady = true := by
  cases a with
  | storeChanges | invalidate => exact h
  | ensureRoot => rw [act, ensureRoot_of_ready h]; exact h
  | resolve => exact rootReady_resolve_of_ready h
  | invalidateFor => exact (rootReady_invalidateAll ..).trans h

/-- Once the configuration root was seen to, this is never forgotten. -/
theorem rootReady_actAll (h : state.1.rootReady = true) (acts : List Act) :
    (actAll settings state acts).1.rootReady = true := by
  induction acts generalizing state with
  | nil => exact h
  | cons a rest ih => exact ih (rootReady_act h a)

/-- From then on, nothing but what others do changes the store. -/
theorem store_act (h : state.1.rootReady = true) {a : Act}
    (ha : ∀ changed, a ≠ .storeChanges changed) : (act settings state a).2 = state.2 := by
  cases a with
  | storeChanges changed => exact absurd rfl (ha changed)
  | ensureRoot => rw [act, ensureRoot_of_ready h]
  | resolve => exact store_resolve_of_ready h
  | invalidate | invalidateFor => rfl

/-- A resolver that has not seen to the configuration root yet succeeds unless a document is in the
way, and then leaves exactly the missing levels behind, written in one transaction at most. If it
fails, everything is as before, so it can try again. Once it has succeeded, nothing that it does
changes the store, whatever others do to it. -/
theorem ensureRoot_all_or_nothing (settings : Settings) (hclosed : store.tree.ParentClosed)
    (hnew : resolver.rootReady = false) :
    ((resolver.ensureRoot settings store).1 = .ok () ↔
      ¬store.tree.Obstructs settings.configRoot) ∧
    ((resolver.ensureRoot settings store).1 = .ok () →
      store.tree.Adds (store.tree.missing settings.configRoot)
        (resolver.ensureRoot settings store).2.2.tree ∧
      ((resolver.ensureRoot settings store).2.2 = store ∨
        store.Spends .committed (store.tree.missing settings.configRoot)
          (resolver.ensureRoot settings store).2.2) ∧
      ∀ acts a, (∀ changed, a ≠ .storeChanges changed) →
        (act settings (actAll settings (resolver.ensureRoot settings store).2 acts) a).2 =
          (actAll settings (resolver.ensureRoot settings store).2 acts).2) ∧
    ∀ error, (resolver.ensureRoot settings store).1 = .error error →
      (resolver.ensureRoot settings store).2.2.tree = store.tree ∧
      (∃ created, store.Spends .aborted created (resolver.ensureRoot settings store).2.2) ∧
      (resolver.ensureRoot settings store).2.1 = resolver ∧
      ∀ later, later.tree.ParentClosed →
        (((resolver.ensureRoot settings store).2.1.ensureRoot settings later).1 = .ok () ↔
          ¬later.tree.Obstructs settings.configRoot) := by
  refine ⟨ensureRoot_eq_ok_iff settings hclosed hnew, ?_⟩
  have hattempts := attempts_ensureRoot settings hclosed hnew
  generalize resolver.ensureRoot settings store = ensured at hattempts ⊢
  cases hattempts with
  | done hfree hadds hwritten =>
    refine ⟨fun _ => ⟨hadds, hwritten, fun acts a ha => ?_⟩, nofun⟩
    exact store_act (rootReady_actAll rfl acts) ha
  | undone hobstructs htree hwritten =>
    refine ⟨nofun, fun error _ => ⟨htree, ⟨_, hwritten⟩, rfl, fun later hlater => ?_⟩⟩
    exact ensureRoot_eq_ok_iff settings hlater hnew

/-- The collection above the default configuration root. -/
def aboveDefaultRoot : Path :=
  Settings.defaultRoot.parent?.getD .root

/-- A store with an open transaction, and with a document in the way of the default configuration
root. -/
def obstructedStore : Store :=
  { Store.initial.beginTransaction.2 with
    tree := Store.initial.tree.insert aboveDefaultRoot (.document ⟨#[]⟩) }

/-- While a transaction is open, the default configuration root is created in another one; with a
document in the way, it is not. -/
theorem ensureRoot_all_or_nothing_default :
    (Store.initial.beginTransaction.2.tree.ParentClosed ∧ obstructedStore.tree.ParentClosed ∧
      initial.rootReady = false) ∧
    Store.initial.beginTransaction.2.tree.Adds [aboveDefaultRoot, Settings.defaultRoot]
      (initial.ensureRoot .default Store.initial.beginTransaction.2).2.2.tree ∧
    obstructedStore.tree.Obstructs Settings.defaultRoot ∧
    (initial.ensureRoot .default obstructedStore).2.2.tree = obstructedStore.tree := by
  have hclosed : Store.initial.beginTransaction.2.tree.ParentClosed := by decide +kernel
  have hobstructed : obstructedStore.tree.ParentClosed := by decide +kernel
  have hnew : initial.rootReady = false := rfl
  have hmissing : Store.initial.beginTransaction.2.tree.missing Settings.defaultRoot =
      [aboveDefaultRoot, Settings.defaultRoot] := by decide +kernel
  have hisOk : (initial.ensureRoot .default Store.initial.beginTransaction.2).1.isOk := by
    decide +kernel
  have hobstructs : obstructedStore.tree.Obstructs Settings.defaultRoot :=
    ⟨aboveDefaultRoot, ⟨#[]⟩, by decide +kernel, by decide +kernel, by decide +kernel⟩
  obtain ⟨-, hdone, -⟩ := ensureRoot_all_or_nothing .default hclosed hnew
  obtain ⟨hiff, -, hundone⟩ := ensureRoot_all_or_nothing .default hobstructed hnew
  refine ⟨⟨hclosed, hobstructed, hnew⟩, ?_, hobstructs, ?_⟩
  · cases hok : (initial.ensureRoot .default Store.initial.beginTransaction.2).1 with
    | ok => exact hmissing ▸ (hdone hok).1
    | error error =>
      rw [hok] at hisOk
      cases hisOk
  · cases herror : (initial.ensureRoot .default obstructedStore).1 with
    | ok => exact absurd hobstructs (hiff.1 herror)
    | error error => exact (hundone error herror).1

end Resolver

end DocTree
