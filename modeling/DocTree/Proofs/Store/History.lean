import DocTree.Proofs.Store.Runs

/-!
# Histories of changes

A run leaves a history: every write that was made, in order, with the transaction it was made for.
The writes of an abort, which put back what its transaction replaced, are part of it. The history
accounts for the tree and for what each active transaction remembers, so what an abort does can be
read off the history alone: every path that the transaction wrote gets back what it held right
before the first of these writes.

## Main definitions

* `Change`: a write that was made for a transaction.
* `Tree.replay`: the tree after several changes.
* `Tree.replacedFor`: what the changes of one transaction replaced.
* `Store.history`: the changes that a run makes.
* `Store.Explained`: changes account for the tree and for what active transactions remember.

## Main results

* `Tree.get?_undo_replacedFor`: what a path holds after the changes of one transaction are undone.
* `Tree.get?_replay_filter_transaction`: where nobody else has changed a path since, undoing the
  changes of a transaction leaves what the changes of the others alone lead to.
* `Store.explained_run`: the history of a run accounts for the store after it.
-/

namespace DocTree

/-- A write that was made for a transaction. -/
structure Change where
  /-- The transaction. -/
  transaction : TransactionId
  /-- The path that was written. -/
  path : Path
  /-- What is stored there by the change, or `none` if the path is cleared. -/
  value : Option Resource
  deriving DecidableEq

namespace Change

/-- A write, made for a transaction. -/
def ofWrite (transaction : TransactionId) (write : Write) : Change :=
  ⟨transaction, write.1, write.2⟩

/-- The change was made to a path for a transaction. -/
def IsOf (transaction : TransactionId) (path : Path) (change : Change) : Prop :=
  change.transaction = transaction ∧ change.path = path

instance (transaction : TransactionId) (path : Path) (change : Change) :
    Decidable (change.IsOf transaction path) :=
  inferInstanceAs (Decidable (_ ∧ _))

variable {transaction : TransactionId} {path : Path} {changes : List Change}

/-- The changes of a transaction to a path have a first one. -/
theorem exists_first {change : Change} (hmem : change ∈ changes)
    (hchange : change.IsOf transaction path) :
    ∃ front first back, changes = front ++ first :: back ∧
      (∀ earlier ∈ front, ¬earlier.IsOf transaction path) ∧ first.IsOf transaction path := by
  cases hfind : changes.find? fun change => change.IsOf transaction path with
  | none =>
    have hnot := List.find?_eq_none.1 hfind change hmem
    simp [hchange] at hnot
  | some first =>
    obtain ⟨hfirst, front, back, hchanges, hfront⟩ := List.find?_eq_some_iff_append.1 hfind
    refine ⟨front, first, back, hchanges, fun earlier hearlier => ?_, by simpa using hfirst⟩
    simpa using hfront earlier hearlier

theorem takeWhile_eq_self (h : ∀ change ∈ changes, ¬change.IsOf transaction path) :
    changes.takeWhile (fun change => !change.IsOf transaction path) = changes := by
  rw [← List.append_nil changes,
    List.takeWhile_append_of_pos fun change hmem => by simpa using h change hmem]
  rfl

theorem takeWhile_eq_of_first {front back : List Change} {first : Change}
    (hfront : ∀ change ∈ front, ¬change.IsOf transaction path)
    (hfirst : first.IsOf transaction path) :
    (front ++ first :: back).takeWhile (fun change => !change.IsOf transaction path) = front := by
  rw [List.takeWhile_append_of_pos fun change hmem => by simpa using hfront change hmem,
    List.takeWhile_cons_of_neg (by simp [hfirst]), List.append_nil]

end Change

namespace Tree

/-! ### Replaying changes -/

/-- The tree after several changes. -/
def replay (tree : Tree) : List Change → Tree
  | [] => tree
  | change :: rest => replay (tree.write change.path change.value) rest

/-- What the changes of a transaction replaced, the last change first. -/
def replacedFor (tree : Tree) (transaction : TransactionId) : List Change → List Write
  | [] => []
  | change :: rest =>
    replacedFor (tree.write change.path change.value) transaction rest ++
      if change.transaction = transaction then [(change.path, tree.get? change.path)] else []

theorem replay_append (tree : Tree) (front back : List Change) :
    tree.replay (front ++ back) = (tree.replay front).replay back := by
  induction front generalizing tree with
  | nil => rfl
  | cons change rest ih => exact ih (tree.write change.path change.value)

theorem replay_map_ofWrite (tree : Tree) (transaction : TransactionId) (writes : List Write) :
    tree.replay (writes.map (.ofWrite transaction)) = tree.undo writes := by
  induction writes generalizing tree with
  | nil => rfl
  | cons entry rest ih => exact ih (tree.write entry.1 entry.2)

/-- What a path holds after changes depends on what it held before, and on no other path. -/
theorem get?_replay_congr {tree other : Tree} {path : Path} (h : tree.get? path = other.get? path)
    (changes : List Change) :
    (tree.replay changes).get? path = (other.replay changes).get? path := by
  induction changes generalizing tree other with
  | nil => exact h
  | cons change rest ih =>
    refine ih ?_
    rw [get?_write, get?_write, h]

/-- Changes of other paths can be left out. -/
theorem get?_replay_filter (tree : Tree) {changes : List Change} {path : Path}
    {keep : Change → Bool} (h : ∀ change ∈ changes, change.path = path → keep change) :
    (tree.replay (changes.filter keep)).get? path = (tree.replay changes).get? path := by
  induction changes generalizing tree with
  | nil => rfl
  | cons change rest ih =>
    rw [List.forall_mem_cons] at h
    by_cases hkeep : keep change
    · rw [List.filter_cons_of_pos hkeep]
      exact ih (tree.write change.path change.value) h.2
    · rw [List.filter_cons_of_neg hkeep, ih tree h.2]
      refine get?_replay_congr ?_ rest
      rw [get?_write, if_neg fun heq => hkeep (h.1 heq)]

theorem get?_replay_of_forall_ne (tree : Tree) {changes : List Change} {path : Path}
    (h : ∀ change ∈ changes, change.path ≠ path) :
    (tree.replay changes).get? path = tree.get? path := by
  induction changes generalizing tree with
  | nil => rfl
  | cons change rest ih =>
    rw [List.forall_mem_cons] at h
    exact (ih _ h.2).trans ((get?_write ..).trans (if_neg h.1))

/-! ### Undoing the changes of a transaction -/

theorem replacedFor_append (tree : Tree) (transaction : TransactionId)
    (front back : List Change) :
    tree.replacedFor transaction (front ++ back) =
      (tree.replay front).replacedFor transaction back ++ tree.replacedFor transaction front := by
  induction front generalizing tree with
  | nil => simp [replacedFor, replay]
  | cons change rest ih =>
    rw [List.cons_append, replacedFor, ih, List.append_assoc]
    rfl

theorem replacedFor_eq_nil (tree : Tree) {transaction : TransactionId} {changes : List Change}
    (h : ∀ change ∈ changes, change.transaction ≠ transaction) :
    tree.replacedFor transaction changes = [] := by
  induction changes generalizing tree with
  | nil => rfl
  | cons change rest ih =>
    rw [List.forall_mem_cons] at h
    rw [replacedFor, ih _ h.2, if_neg h.1]
    rfl

theorem replacedFor_map_ofWrite (tree : Tree) (transaction : TransactionId)
    (writes : List Write) :
    tree.replacedFor transaction (writes.map (.ofWrite transaction)) =
      (tree.applyWrites writes).2 := by
  induction writes generalizing tree with
  | nil => rfl
  | cons entry rest ih =>
    rw [List.map_cons, replacedFor, Change.ofWrite, if_pos rfl, ih, applyWrites]

/-- If the changes of a transaction are undone, then each path holds what it held right before the
first change of it for the transaction, or what it holds now if there is none. -/
theorem get?_undo_replacedFor (tree : Tree) (transaction : TransactionId) (changes : List Change)
    (path : Path) :
    ((tree.replay changes).undo (tree.replacedFor transaction changes)).get? path =
      (tree.replay (changes.takeWhile fun change => !change.IsOf transaction path)).get? path := by
  induction changes generalizing tree with
  | nil => rfl
  | cons change rest ih =>
    have hrest := ih (tree.write change.path change.value)
    rw [replay, replacedFor, undo_append]
    by_cases htransaction : change.transaction = transaction
    · -- This change is undone last, and decides about its own path.
      rw [if_pos htransaction]
      refine (get?_write ..).trans ?_
      by_cases hpath : change.path = path
      · have hfirst : change.IsOf transaction path := ⟨htransaction, hpath⟩
        rw [if_pos hpath, List.takeWhile_cons_of_neg (by simp [hfirst]), hpath]
        rfl
      · have hother : ¬change.IsOf transaction path := fun h => hpath h.2
        rw [if_neg hpath, List.takeWhile_cons_of_pos (by simp [hother]), hrest]
        rfl
    · have hother : ¬change.IsOf transaction path := fun h => htransaction h.1
      rw [if_neg htransaction, List.takeWhile_cons_of_pos (by simp [hother])]
      exact hrest

/-- If nobody else has changed a path since the first change of it for a transaction, then what the
path held before that is what the changes of the others alone lead to. -/
theorem get?_replay_filter_transaction (tree : Tree) {transaction : TransactionId}
    {changes : List Change} {path : Path}
    (h : ∀ front change back, changes = front ++ change :: back → change.IsOf transaction path →
      ∀ later ∈ back, later.path = path → later.transaction = transaction) :
    (tree.replay (changes.takeWhile fun change => !change.IsOf transaction path)).get? path =
      (tree.replay (changes.filter fun change => change.transaction ≠ transaction)).get? path := by
  by_cases hwritten : ∃ change ∈ changes, change.IsOf transaction path
  · obtain ⟨change, hmem, hchange⟩ := hwritten
    obtain ⟨front, first, back, rfl, hfront, hfirst⟩ := Change.exists_first hmem hchange
    -- From the first change on, every change of the path is left out.
    have hafter : ∀ change ∈ (first :: back).filter fun change => change.transaction ≠ transaction,
        change.path ≠ path := by
      intro change hmem hpath
      obtain ⟨hmem, hother⟩ := List.mem_filter.1 hmem
      rcases List.mem_cons.1 hmem with rfl | hmem
      · simp [hfirst.1] at hother
      · simp [h front first back rfl hfirst change hmem hpath] at hother
    rw [Change.takeWhile_eq_of_first hfront hfirst, List.filter_append, replay_append,
      get?_replay_of_forall_ne _ hafter, get?_replay_filter]
    intro change hmem hpath
    simpa using fun htransaction => hfront change hmem ⟨htransaction, hpath⟩
  · have hunwritten : ∀ change ∈ changes, ¬change.IsOf transaction path :=
      fun change hmem hchange => hwritten ⟨change, hmem, hchange⟩
    rw [Change.takeWhile_eq_self hunwritten, get?_replay_filter]
    intro change hmem hpath
    simpa using fun htransaction => hunwritten change hmem ⟨htransaction, hpath⟩

end Tree

namespace Store

/-! ### The history of a run -/

/-- The changes that a request makes. -/
def changes (store : Store) : Request → List Change
  | .perform transaction mutation =>
    match store.requireActive transaction, store.tree.writes mutation with
    | .ok _, .ok writes => writes.map (.ofWrite transaction)
    | _, _ => []
  | .abort transaction =>
    match store.requireActive transaction with
    -- An abort puts back what its transaction replaced.
    | .ok log => log.replaced.map (.ofWrite transaction)
    | .error _ => []
  | .beginTransaction | .commit _ => []

/-- The changes that several requests make, in order. -/
def history (store : Store) : List Request → List Change
  | [] => []
  | request :: rest => store.changes request ++ (store.respond request).2.history rest

theorem history_append (store : Store) (front back : List Request) :
    store.history (front ++ back) = store.history front ++ (store.run front).history back := by
  induction front generalizing store with
  | nil => rfl
  | cons request rest ih => rw [List.cons_append, history, ih, history, List.append_assoc, run]

theorem history_singleton (store : Store) (request : Request) :
    store.history [request] = store.changes request :=
  List.append_nil _

/-- A refused request makes no changes. -/
theorem changes_of_refused {store : Store} {request : Request} {error : StoreError}
    (h : (store.respond request).1 = .error error) : store.changes request = [] := by
  cases request with
  | beginTransaction => rfl
  | commit transaction => rfl
  | perform transaction mutation =>
    cases hlog : store.requireActive transaction with
    | error e => rw [changes, hlog]
    | ok log =>
      cases hwrites : store.tree.writes mutation with
      | error e => rw [changes, hlog, hwrites]
      | ok writes =>
        rw [respond, perform_eq_ok_iff.2 ⟨log, writes, hlog, hwrites, rfl⟩] at h
        cases h
  | abort transaction =>
    cases hlog : store.requireActive transaction with
    | error e => rw [changes, hlog]
    | ok log =>
      rw [respond, abort_eq_ok hlog] at h
      cases h

/-- Changes account for the tree of a store and for what its active transactions remember. -/
structure Explained (start : Tree) (past : List Change) (store : Store) : Prop where
  /-- The changes lead to the tree. -/
  tree : store.tree = start.replay past
  /-- They were made for transactions of the store. -/
  known : ∀ change ∈ past, (store.transactions.get? change.transaction).isSome
  /-- An active transaction remembers what its changes replaced. -/
  remembered : ∀ transaction log, store.requireActive transaction = .ok log →
    log.replaced = start.replacedFor transaction past

namespace Explained

variable {start : Tree} {past : List Change} {store after : Store} {transaction : TransactionId}
  {log bound : TransactionLog}

/-- Changes made for an active transaction account for the store after them, if what they replaced
is remembered as long as the transaction stays active. -/
theorem extend (h : Explained start past store) (hlog : store.requireActive transaction = .ok log)
    (hafter : after.transactions = store.transactions.set transaction bound)
    (writes : List Write) (htree : after.tree = (store.tree.applyWrites writes).1)
    (hbound : bound.status = .active →
      bound.replaced = (store.tree.applyWrites writes).2 ++ log.replaced) :
    Explained start (past ++ writes.map (.ofWrite transaction)) after where
  tree := by
    rw [htree, Tree.fst_applyWrites, h.tree, Tree.replay_append, Tree.replay_map_ofWrite]
  known change hmem := by
    rw [hafter, Table.get?_set]
    split
    · rfl
    next hne =>
      rcases List.mem_append.1 hmem with hmem | hmem
      · exact h.known change hmem
      · obtain ⟨write, -, rfl⟩ := List.mem_map.1 hmem
        exact absurd rfl hne
  remembered other found hfound := by
    rw [Tree.replacedFor_append, ← h.tree]
    rcases requireActive_of_set hafter hfound with ⟨rfl, rfl, hactive⟩ | ⟨hne, hfound⟩
    · rw [hbound hactive, Tree.replacedFor_map_ofWrite, h.remembered other log hlog]
    · rw [Tree.replacedFor_eq_nil, List.nil_append]
      · exact h.remembered other found hfound
      · intro change hmem
        obtain ⟨write, -, rfl⟩ := List.mem_map.1 hmem
        exact Ne.symm hne

/-- The changes of a request account for what it does to the store. -/
theorem respond (h : Explained start past store) {request : Request}
    (hfresh : request = .beginTransaction →
      store.transactions.get? store.nextTransaction = none) :
    Explained start (past ++ store.changes request) (store.respond request).2 := by
  have hresponds := store.responds_respond request
  generalize (store.respond request).1 = answer, (store.respond request).2 = after at hresponds ⊢
  cases hresponds with
  | opened =>
    rw [changes, List.append_nil]
    refine ⟨h.tree, fun change hmem => ?_, fun other found hfound => ?_⟩
    · rw [beginTransaction, Table.get?_set]
      split
      · rfl
      · exact h.known change hmem
    · rcases requireActive_of_set rfl hfound with ⟨rfl, rfl, -⟩ | ⟨-, hfound⟩
      · -- No change was made for the new transaction yet.
        refine (Tree.replacedFor_eq_nil start fun change hmem hchange => ?_).symm
        have hknown := h.known change hmem
        rw [hchange, hfresh rfl] at hknown
        cases hknown
      · exact h.remembered other found hfound
  | refused hrefused =>
    rw [changes_of_refused hrefused, List.append_nil]
    exact h
  | performed hlog hwrites =>
    rw [changes, hlog, hwrites]
    exact h.extend hlog rfl _ rfl fun _ => rfl
  | @committed transaction log hlog =>
    rw [changes, ← List.map_nil (f := Change.ofWrite transaction)]
    exact h.extend hlog rfl [] rfl fun hactive => by cases hactive
  | aborted hlog =>
    rw [changes, hlog]
    exact h.extend hlog rfl _ (Tree.fst_applyWrites ..).symm fun hactive => by
      cases hactive

end Explained

theorem explained_initial : Explained Store.initial.tree [] Store.initial where
  tree := rfl
  known _ hmem := nomatch hmem
  remembered _ _ hlog := nomatch hlog

/-- The history of a run accounts for the store after it. -/
theorem explained_run {requests : List Request} (hopened : opened requests < 2 ^ 64) :
    Explained Store.initial.tree (Store.initial.history requests)
      (Store.initial.run requests) := by
  refine (run_invariant (P := fun past store => store = Store.initial.run past ∧
    Explained Store.initial.tree (Store.initial.history past) store) ?_ []
      numbered_initial ⟨rfl, explained_initial⟩ requests (by rwa [Nat.zero_add])).2
  rintro past store request ⟨rfl, h⟩ hfresh
  refine ⟨by rw [run_append]; rfl, ?_⟩
  rw [history_append, history_singleton]
  exact h.respond hfresh

end Store

end DocTree
