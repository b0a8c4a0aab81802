import DocTree.Store.Basic
import DocTree.Proofs.Path.Range

/-!
# What a mutation writes

A mutation is allowed if the tree meets its requirements. It then writes at and below its source and
its destination, and nowhere else. What its writes replaced is remembered under the same paths, so
undoing them stays within these bounds as well.

## Main definitions

* `Mutation.Touches`: a path lies at or below the source or the destination of a mutation.
* `Tree.IsFree`: a resource can be created at a path.
* `Tree.Allows`: what it takes for a mutation to be allowed, and what it writes then.
* `Store.KeptByPerform`: a property of stores that applying mutations in a transaction keeps.
* `Store.UndoesTo`: undoing what an active transaction remembers leads to a given tree.

## Main results

* `Tree.writes_eq_ok_iff`: a tree turns exactly the mutations that it allows into writes.
* `Tree.touches_of_mem_writes`: a mutation writes only where it touches the tree.
* `Tree.get?_applyWrites_of_notMem` and `Tree.get?_undo_of_notMem`: other paths keep what they
  held, when writes are carried out and when they are taken back.
* `Store.perform_eq_ok_iff`: what it takes for the store to apply a mutation, and what changes.
-/

namespace DocTree

/-- A computation made of two steps succeeds exactly if both steps do. -/
theorem bind_eq_ok_iff {ε α β : Type} {x : Except ε α} {f : α → Except ε β} {b : β} :
    (x >>= f) = .ok b ↔ ∃ a, x = .ok a ∧ f a = .ok b := by
  cases x <;> simp [bind, Except.bind]

/-- A path lies at or below the source or the destination of a mutation. -/
def Mutation.Touches (mutation : Mutation) (path : Path) : Prop :=
  path.startsWith mutation.source ∨
    ∃ destination, mutation.destination? = some destination ∧ path.startsWith destination

namespace Tree

/-! ### Requirements -/

/-- A resource can be created at the path: nothing is stored there, and the parent, if there is
one, is a collection. -/
structure IsFree (tree : Tree) (path : Path) : Prop where
  /-- Nothing is stored at the path. -/
  vacant : tree.get? path = none
  /-- The parent is a collection. -/
  parent : ∀ parent, path.parent? = some parent → tree.get? parent = some .collection

variable {tree : Tree} {path : Path}

theorem requireCollection_eq_ok_iff :
    tree.requireCollection path = .ok () ↔ tree.get? path = some .collection := by
  unfold requireCollection
  split <;> simp_all

theorem requireDocument_eq_ok_iff {content : Content} :
    tree.requireDocument path = .ok content ↔ tree.get? path = some (.document content) := by
  unfold requireDocument
  split <;> simp_all

theorem requireFree_eq_ok_iff : tree.requireFree path = .ok () ↔ tree.IsFree path := by
  unfold requireFree PathMap.contains
  cases hget : tree.get? path with
  | some resource =>
    simp only [Option.isSome_some, if_true, reduceCtorEq, false_iff]
    intro hfree
    simp [hfree.vacant] at hget
  | none =>
    simp only [Option.isSome_none, Bool.false_eq_true, if_false]
    split
    next hparent =>
      refine iff_of_true rfl ⟨hget, fun parent h => ?_⟩
      simp [hparent] at h
    next parent hparent =>
      split
      next hcollection =>
        refine iff_of_true rfl ⟨hget, fun other h => ?_⟩
        rw [hparent, Option.some.injEq] at h
        exact h ▸ hcollection
      next hno => exact iff_of_false nofun fun hfree => hno (hfree.parent parent hparent)

theorem requireTransfer_eq_ok_iff {source destination : Path} :
    tree.requireTransfer source destination = .ok () ↔
      tree.get? source = some .collection ∧ ¬destination.startsWith source ∧
        tree.IsFree destination := by
  rw [requireTransfer, ← requireCollection_eq_ok_iff, ← requireFree_eq_ok_iff]
  cases tree.requireCollection source with
  | error e => simp [bind, Except.bind]
  | ok _ =>
    by_cases hinto : destination.startsWith source
    · simp [hinto, bind, Except.bind]
    · simp [hinto, bind, Except.bind]

/-- The mutations that a tree allows, with the writes that each of them asks for. -/
inductive Allows (tree : Tree) : Mutation → List Write → Prop where
  | createCollection {path : Path} (hfree : tree.IsFree path) :
      Allows tree (.createCollection path) [(path, some .collection)]
  | updateCollection {path : Path} (hstored : tree.get? path = some .collection) :
      Allows tree (.updateCollection path) [(path, some .collection)]
  | copyCollection {source destination : Path} (hstored : tree.get? source = some .collection)
      (houtside : ¬destination.startsWith source) (hfree : tree.IsFree destination) :
      Allows tree (.copyCollection source destination) (tree.copyWrites source destination)
  | moveCollection {source destination : Path} (hstored : tree.get? source = some .collection)
      (houtside : ¬destination.startsWith source) (hfree : tree.IsFree destination) :
      Allows tree (.moveCollection source destination)
        (tree.copyWrites source destination ++ tree.clearWrites source)
  | deleteCollection {path : Path} (hstored : tree.get? path = some .collection) :
      Allows tree (.deleteCollection path) (tree.clearWrites path)
  | createDocument {path : Path} {content : Content} (hfree : tree.IsFree path) :
      Allows tree (.createDocument path content) [(path, some (.document content))]
  | updateDocument {path : Path} {old content : Content}
      (hstored : tree.get? path = some (.document old)) :
      Allows tree (.updateDocument path content) [(path, some (.document content))]
  | copyDocument {source destination : Path} {content : Content}
      (hstored : tree.get? source = some (.document content)) (hfree : tree.IsFree destination) :
      Allows tree (.copyDocument source destination) [(destination, some (.document content))]
  | moveDocument {source destination : Path} {content : Content}
      (hstored : tree.get? source = some (.document content)) (hfree : tree.IsFree destination) :
      Allows tree (.moveDocument source destination)
        [(destination, some (.document content)), (source, none)]
  | deleteDocument {path : Path} {content : Content}
      (hstored : tree.get? path = some (.document content)) :
      Allows tree (.deleteDocument path) [(path, none)]

/-- A tree turns exactly the mutations that it allows into writes. -/
theorem writes_eq_ok_iff {mutation : Mutation} {writes : List Write} :
    tree.writes mutation = .ok writes ↔ tree.Allows mutation writes := by
  constructor
  · intro h
    -- Every kind of mutation checks something and then returns its list of writes.
    cases mutation with
    | createCollection path =>
      obtain ⟨_, hfree, hwrites⟩ := bind_eq_ok_iff.1 h
      cases hwrites
      exact .createCollection (requireFree_eq_ok_iff.1 hfree)
    | updateCollection path =>
      obtain ⟨_, hstored, hwrites⟩ := bind_eq_ok_iff.1 h
      cases hwrites
      exact .updateCollection (requireCollection_eq_ok_iff.1 hstored)
    | copyCollection source destination =>
      obtain ⟨_, htransfer, hwrites⟩ := bind_eq_ok_iff.1 h
      cases hwrites
      obtain ⟨hstored, houtside, hfree⟩ := requireTransfer_eq_ok_iff.1 htransfer
      exact .copyCollection hstored houtside hfree
    | moveCollection source destination =>
      obtain ⟨_, htransfer, hwrites⟩ := bind_eq_ok_iff.1 h
      cases hwrites
      obtain ⟨hstored, houtside, hfree⟩ := requireTransfer_eq_ok_iff.1 htransfer
      exact .moveCollection hstored houtside hfree
    | deleteCollection path =>
      obtain ⟨_, hstored, hwrites⟩ := bind_eq_ok_iff.1 h
      cases hwrites
      exact .deleteCollection (requireCollection_eq_ok_iff.1 hstored)
    | createDocument path content =>
      obtain ⟨_, hfree, hwrites⟩ := bind_eq_ok_iff.1 h
      cases hwrites
      exact .createDocument (requireFree_eq_ok_iff.1 hfree)
    | updateDocument path content =>
      obtain ⟨old, hstored, hwrites⟩ := bind_eq_ok_iff.1 h
      cases hwrites
      exact .updateDocument (requireDocument_eq_ok_iff.1 hstored)
    | copyDocument source destination =>
      obtain ⟨content, hstored, hnext⟩ := bind_eq_ok_iff.1 h
      obtain ⟨_, hfree, hwrites⟩ := bind_eq_ok_iff.1 hnext
      cases hwrites
      exact .copyDocument (requireDocument_eq_ok_iff.1 hstored) (requireFree_eq_ok_iff.1 hfree)
    | moveDocument source destination =>
      obtain ⟨content, hstored, hnext⟩ := bind_eq_ok_iff.1 h
      obtain ⟨_, hfree, hwrites⟩ := bind_eq_ok_iff.1 hnext
      cases hwrites
      exact .moveDocument (requireDocument_eq_ok_iff.1 hstored) (requireFree_eq_ok_iff.1 hfree)
    | deleteDocument path =>
      obtain ⟨content, hstored, hwrites⟩ := bind_eq_ok_iff.1 h
      cases hwrites
      exact .deleteDocument (requireDocument_eq_ok_iff.1 hstored)
  · rintro (hfree | hstored | ⟨hstored, houtside, hfree⟩ | ⟨hstored, houtside, hfree⟩ | hstored |
      hfree | hstored | ⟨hstored, hfree⟩ | ⟨hstored, hfree⟩ | hstored)
    · exact bind_eq_ok_iff.2 ⟨(), requireFree_eq_ok_iff.2 hfree, rfl⟩
    · exact bind_eq_ok_iff.2 ⟨(), requireCollection_eq_ok_iff.2 hstored, rfl⟩
    · exact bind_eq_ok_iff.2
        ⟨(), requireTransfer_eq_ok_iff.2 ⟨hstored, houtside, hfree⟩, rfl⟩
    · exact bind_eq_ok_iff.2
        ⟨(), requireTransfer_eq_ok_iff.2 ⟨hstored, houtside, hfree⟩, rfl⟩
    · exact bind_eq_ok_iff.2 ⟨(), requireCollection_eq_ok_iff.2 hstored, rfl⟩
    · exact bind_eq_ok_iff.2 ⟨(), requireFree_eq_ok_iff.2 hfree, rfl⟩
    · exact bind_eq_ok_iff.2 ⟨_, requireDocument_eq_ok_iff.2 hstored, rfl⟩
    · exact bind_eq_ok_iff.2 ⟨_, requireDocument_eq_ok_iff.2 hstored,
        bind_eq_ok_iff.2 ⟨(), requireFree_eq_ok_iff.2 hfree, rfl⟩⟩
    · exact bind_eq_ok_iff.2 ⟨_, requireDocument_eq_ok_iff.2 hstored,
        bind_eq_ok_iff.2 ⟨(), requireFree_eq_ok_iff.2 hfree, rfl⟩⟩
    · exact bind_eq_ok_iff.2 ⟨_, requireDocument_eq_ok_iff.2 hstored, rfl⟩

/-! ### Where a mutation writes -/

/-- Copies are put at and below the destination. -/
theorem startsWith_of_mem_copyWrites {tree : Tree} {source destination : Path} {entry : Write}
    (h : entry ∈ tree.copyWrites source destination) : entry.1.startsWith destination := by
  rw [copyWrites, List.mem_filterMap] at h
  obtain ⟨copied, -, h⟩ := h
  obtain ⟨target, htarget, rfl⟩ := Option.map_eq_some_iff.1 h
  exact Path.startsWith_of_relocate? htarget

/-- What is cleared lies at or below the cleared path. -/
theorem startsWith_of_mem_clearWrites {tree : Tree} {path : Path} {entry : Write}
    (h : entry ∈ tree.clearWrites path) : entry.1.startsWith path := by
  rw [clearWrites, List.mem_map] at h
  obtain ⟨⟨key, value⟩, hmem, rfl⟩ := h
  exact (PathMap.mem_subtree_iff.1 (List.mem_reverse.1 hmem)).2

/-- A mutation writes only where it touches the tree. -/
theorem touches_of_mem_writes {tree : Tree} {mutation : Mutation} {writes : List Write}
    (h : tree.writes mutation = .ok writes) {entry : Write} (hmem : entry ∈ writes) :
    mutation.Touches entry.1 := by
  cases writes_eq_ok_iff.1 h with
  | createCollection | updateCollection | createDocument | updateDocument | deleteDocument =>
    rw [List.mem_singleton.1 hmem]
    exact .inl (Path.startsWith_self _)
  | copyCollection => exact .inr ⟨_, rfl, startsWith_of_mem_copyWrites hmem⟩
  | moveCollection =>
    rcases List.mem_append.1 hmem with hmem | hmem
    · exact .inr ⟨_, rfl, startsWith_of_mem_copyWrites hmem⟩
    · exact .inl (startsWith_of_mem_clearWrites hmem)
  | deleteCollection => exact .inl (startsWith_of_mem_clearWrites hmem)
  | copyDocument =>
    rw [List.mem_singleton.1 hmem]
    exact .inr ⟨_, rfl, Path.startsWith_self _⟩
  | moveDocument =>
    rcases List.mem_cons.1 hmem with rfl | hmem
    · exact .inr ⟨_, rfl, Path.startsWith_self _⟩
    · rw [List.mem_singleton.1 hmem]
      exact .inl (Path.startsWith_self _)

/-! ### Paths that are not written -/

/-- What was replaced is remembered under the paths that were written. -/
theorem map_fst_replaced_applyWrites (tree : Tree) (writes : List Write) :
    (tree.applyWrites writes).2.map Prod.fst = (writes.map Prod.fst).reverse := by
  induction writes generalizing tree with
  | nil => rfl
  | cons entry rest ih =>
    rw [applyWrites, List.map_append, ih]
    simp

theorem undo_append (tree : Tree) (front back : List Write) :
    tree.undo (front ++ back) = (tree.undo front).undo back :=
  List.foldl_append

/-- Writes are carried out in the way in which they are taken back: one after another. -/
theorem fst_applyWrites (tree : Tree) (writes : List Write) :
    (tree.applyWrites writes).1 = tree.undo writes := by
  induction writes generalizing tree with
  | nil => rfl
  | cons entry rest ih => exact ih (tree.write entry.1 entry.2)

/-- A path for which nothing was replaced keeps what it held when writes are taken back. -/
theorem get?_undo_of_notMem (tree : Tree) {replaced : List Write} {path : Path}
    (h : path ∉ replaced.map Prod.fst) : (tree.undo replaced).get? path = tree.get? path := by
  induction replaced generalizing tree with
  | nil => rfl
  | cons entry rest ih =>
    rw [List.map_cons, List.mem_cons, not_or] at h
    have hstep : tree.undo (entry :: rest) = (tree.write entry.1 entry.2).undo rest := rfl
    rw [hstep, ih _ h.2, get?_write, if_neg (Ne.symm h.1)]

/-- A path that is not written keeps what it held. -/
theorem get?_applyWrites_of_notMem (tree : Tree) {writes : List Write} {path : Path}
    (h : path ∉ writes.map Prod.fst) : (tree.applyWrites writes).1.get? path = tree.get? path := by
  rw [fst_applyWrites]
  exact get?_undo_of_notMem tree h

end Tree

namespace Store

/-! ### The operations of the store -/

/-- The log of an active transaction is found if there is one. -/
theorem requireActive_eq_ok_iff {store : Store} {transaction : TransactionId}
    {log : TransactionLog} :
    store.requireActive transaction = .ok log ↔
      store.transactions.get? transaction = some log ∧ log.status = .active := by
  unfold requireActive
  split
  next replaced h =>
    rw [h]
    constructor
    · intro heq
      cases heq
      exact ⟨rfl, rfl⟩
    · rintro ⟨heq, -⟩
      cases heq
      rfl
  next hno =>
    constructor
    · intro heq
      cases heq
    · rintro ⟨hget, hactive⟩
      obtain ⟨status, replaced⟩ := log
      cases hactive
      exact absurd hget (hno replaced)

/-- A new transaction is active, and has nothing to take back. -/
theorem requireActive_beginTransaction (store : Store) :
    store.beginTransaction.2.requireActive store.beginTransaction.1 = .ok ⟨.active, []⟩ := by
  refine requireActive_eq_ok_iff.2 ⟨?_, rfl⟩
  rw [beginTransaction, Table.get?_set, if_pos rfl]

/-- A transaction is active exactly if it has an active log. -/
theorem status?_eq_active_iff {store : Store} {transaction : TransactionId} :
    store.status? transaction = some .active ↔
      ∃ log, store.requireActive transaction = .ok log := by
  rw [status?, Option.map_eq_some_iff]
  exact exists_congr fun log => requireActive_eq_ok_iff.symm

/-- The store after a mutation with the given writes was applied. -/
def applied (store : Store) (transaction : TransactionId) (mutation : Mutation)
    (log : TransactionLog) (writes : List Write) : Store where
  tree := (store.tree.applyWrites writes).1
  transactions := store.transactions.set transaction
    ⟨.active, (store.tree.applyWrites writes).2 ++ log.replaced⟩
  nextTransaction := store.nextTransaction
  journal := store.journal ++ [⟨transaction, mutation⟩]

/-- The store applies a mutation if its transaction is active and the tree allows it. -/
theorem perform_eq_ok_iff {store after : Store} {transaction : TransactionId}
    {mutation : Mutation} :
    store.perform transaction mutation = .ok after ↔
      ∃ log writes, store.requireActive transaction = .ok log ∧
        store.tree.writes mutation = .ok writes ∧
        after = store.applied transaction mutation log writes := by
  rw [perform, bind_eq_ok_iff]
  constructor
  · rintro ⟨log, hlog, h⟩
    obtain ⟨writes, hwrites, h⟩ := bind_eq_ok_iff.1 h
    exact ⟨log, writes, hlog, hwrites, (Except.ok.inj h).symm⟩
  · rintro ⟨log, writes, hlog, hwrites, rfl⟩
    exact ⟨log, hlog, bind_eq_ok_iff.2 ⟨writes, hwrites, rfl⟩⟩

/-- An applied mutation is the last entry of the journal. -/
theorem journal_of_perform {store after : Store} {transaction : TransactionId}
    {mutation : Mutation} (h : store.perform transaction mutation = .ok after) :
    after.journal = store.journal ++ [⟨transaction, mutation⟩] := by
  obtain ⟨log, writes, -, -, rfl⟩ := perform_eq_ok_iff.1 h
  rfl

/-- The transaction of an applied mutation is active. -/
theorem status?_of_perform {store after : Store} {transaction : TransactionId}
    {mutation : Mutation} (h : store.perform transaction mutation = .ok after) :
    after.status? transaction = some .active := by
  obtain ⟨log, writes, -, -, rfl⟩ := perform_eq_ok_iff.1 h
  rw [status?, applied, Table.get?_set, if_pos rfl]
  rfl

/-- Active transactions stay active when a mutation is applied. -/
theorem active_of_perform {store after : Store} {transaction other : TransactionId}
    {mutation : Mutation} (h : store.perform transaction mutation = .ok after)
    (hactive : store.status? other = some .active) : after.status? other = some .active := by
  by_cases hother : transaction = other
  · exact hother ▸ status?_of_perform h
  · obtain ⟨log, writes, -, -, rfl⟩ := perform_eq_ok_iff.1 h
    rw [← hactive, status?, status?, applied, Table.get?_set, if_neg hother]

/-- A path that an applied mutation does not touch keeps what it held. -/
theorem get?_of_perform {store after : Store} {transaction : TransactionId}
    {mutation : Mutation} (h : store.perform transaction mutation = .ok after) {path : Path}
    (hpath : ¬mutation.Touches path) : after.tree.get? path = store.tree.get? path := by
  obtain ⟨log, writes, -, hwrites, rfl⟩ := perform_eq_ok_iff.1 h
  apply Tree.get?_applyWrites_of_notMem
  intro hmem
  obtain ⟨entry, hentry, rfl⟩ := List.mem_map.1 hmem
  exact hpath (Tree.touches_of_mem_writes hwrites hentry)

/-- What a transaction remembers after a mutation was applied, it remembered before, or the
mutation is one of its own and touches it. -/
theorem replaced_of_perform {store after : Store} {transaction other : TransactionId}
    {mutation : Mutation} (h : store.perform transaction mutation = .ok after)
    {log : TransactionLog} (hlog : after.transactions.get? other = some log) {entry : Write}
    (hentry : entry ∈ log.replaced) :
    (∃ old, store.transactions.get? other = some old ∧ entry ∈ old.replaced) ∨
      (other = transaction ∧ mutation.Touches entry.1) := by
  obtain ⟨old, writes, hold, hwrites, rfl⟩ := perform_eq_ok_iff.1 h
  rw [applied, Table.get?_set] at hlog
  split at hlog
  next hsame =>
    subst hsame
    cases hlog
    -- The new entries of the log are at the paths that were written.
    rcases List.mem_append.1 hentry with hentry | hentry
    · have hkey : entry.1 ∈ (store.tree.applyWrites writes).2.map Prod.fst :=
        List.mem_map_of_mem hentry
      rw [Tree.map_fst_replaced_applyWrites, List.mem_reverse, List.mem_map] at hkey
      obtain ⟨write, hwrite, heq⟩ := hkey
      exact .inr ⟨rfl, heq ▸ Tree.touches_of_mem_writes hwrites hwrite⟩
    · exact .inl ⟨old, (requireActive_eq_ok_iff.1 hold).1, hentry⟩
  · exact .inl ⟨log, hlog, hentry⟩

/-- An active transaction can be committed. -/
theorem commit_eq_ok {store : Store} {transaction : TransactionId} {log : TransactionLog}
    (h : store.requireActive transaction = .ok log) :
    store.commit transaction =
      .ok { store with transactions := store.transactions.set transaction ⟨.committed, []⟩ } := by
  rw [commit, h]
  rfl

theorem abort_eq_ok {store : Store} {transaction : TransactionId} {log : TransactionLog}
    (h : store.requireActive transaction = .ok log) :
    store.abort transaction =
      .ok { store with
        tree := store.tree.undo log.replaced
        transactions := store.transactions.set transaction ⟨.aborted, []⟩ } := by
  rw [abort, h]
  rfl

/-! ### What a transaction can take back -/

/-- Applying a mutation in a transaction keeps a property of stores. -/
def KeptByPerform (transaction : TransactionId) (P : Store → Prop) : Prop :=
  ∀ store mutation after, P store → store.perform transaction mutation = .ok after → P after

/-- A transaction is active, and undoing what it remembers leads to a tree. -/
def UndoesTo (tree : Tree) (transaction : TransactionId) (store : Store) : Prop :=
  ∃ log, store.requireActive transaction = .ok log ∧ store.tree.undo log.replaced = tree

/-- A new transaction has nothing to undo yet. -/
theorem undoesTo_beginTransaction (store : Store) :
    store.beginTransaction.2.UndoesTo store.tree store.beginTransaction.1 :=
  ⟨⟨.active, []⟩, store.requireActive_beginTransaction, rfl⟩

theorem keptByPerform_undoesTo (tree : Tree) (transaction : TransactionId) :
    KeptByPerform transaction (UndoesTo tree transaction) := by
  rintro store mutation after ⟨log, hlog, htree⟩ hperform
  obtain ⟨found, writes, hfound, -, rfl⟩ := perform_eq_ok_iff.1 hperform
  rw [hlog] at hfound
  cases hfound
  refine ⟨⟨.active, (store.tree.applyWrites writes).2 ++ log.replaced⟩, ?_, ?_⟩
  · refine requireActive_eq_ok_iff.2 ⟨?_, rfl⟩
    rw [applied, Table.get?_set, if_pos rfl]
  · -- The writes of the mutation are undone first.
    show (store.tree.applyWrites writes).1.undo _ = tree
    rw [Tree.undo_append, Tree.undo_applyWrites, htree]

end Store

end DocTree
