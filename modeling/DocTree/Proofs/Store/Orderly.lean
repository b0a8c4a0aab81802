import DocTree.Proofs.Store.Hierarchy
import DocTree.Proofs.Store.Runs

/-!
# The hierarchy along orderly runs

An abort puts back what its transaction replaced, whatever has become of the places around it: if
somebody else has deleted the collection in the meantime, a document is put back below nothing. In
an orderly run this cannot happen, since a transaction is aborted only as long as nobody else has
changed the tree since its first mutation. Then the abort leads back to a tree that the run has
passed, and the hierarchy is kept.

## Main definitions

* `Store.Undisturbed`: nobody else has changed the tree since the first mutation of a transaction.
* `Store.Orderly`: a run that aborts undisturbed transactions only.
* `Store.Reversible`: the hierarchy is kept, also if an undisturbed transaction is aborted.

## Main results

* `Store.Reversible.applied` and `Store.Reversible.aborted`: mutations, and aborts of undisturbed
  transactions, keep this.
* `Store.parentClosed_run`: after an orderly run, everything stored has a collection as its parent.
-/

namespace DocTree.Store

variable {store after : Store} {transaction other : TransactionId} {request : Request}
  {log bound : TransactionLog}

/-- Every mutation applied after one of the transaction is one of the transaction as well. -/
def Undisturbed (store : Store) (transaction : TransactionId) : Prop :=
  store.journal.Pairwise fun earlier later =>
    earlier.transaction = transaction → later.transaction = transaction

instance (store : Store) (transaction : TransactionId) :
    Decidable (store.Undisturbed transaction) :=
  inferInstanceAs (Decidable (List.Pairwise _ _))

/-- If the request aborts an active transaction, then nobody has disturbed it. -/
def AbortsUndisturbed (store : Store) : Request → Prop
  | .abort transaction =>
    store.status? transaction = some .active → store.Undisturbed transaction
  | .beginTransaction | .perform _ _ | .commit _ => True

instance (store : Store) : DecidablePred store.AbortsUndisturbed
  | .abort _ => inferInstanceAs (Decidable (_ → _))
  | .beginTransaction | .perform _ _ | .commit _ => .isTrue trivial

/-- Transactions are aborted undisturbed throughout the run. -/
def Orderly (store : Store) : List Request → Prop
  | [] => True
  | request :: rest => store.AbortsUndisturbed request ∧ (store.respond request).2.Orderly rest

instance decidableOrderly (store : Store) : DecidablePred store.Orderly
  | [] => .isTrue trivial
  | request :: rest =>
    have := decidableOrderly (store.respond request).2 rest
    inferInstanceAs (Decidable (_ ∧ _))

/-! ### Undisturbed transactions -/

theorem Undisturbed.of_append {entries : List JournalEntry}
    (h : after.Undisturbed transaction) (hafter : after.journal = store.journal ++ entries) :
    store.Undisturbed transaction := by
  rw [Undisturbed, hafter, List.pairwise_append] at h
  exact h.1

/-- Of two transactions that have both applied mutations, one has disturbed the other. -/
theorem Undisturbed.eq_of_mem (h : store.Undisturbed transaction) (hother : store.Undisturbed other)
    {own others : JournalEntry} (hown : own ∈ store.journal) (hmem : others ∈ store.journal)
    (htransaction : own.transaction = transaction) (hothers : others.transaction = other) :
    other = transaction := by
  obtain ⟨front, back, hjournal⟩ := List.append_of_mem hown
  rw [Undisturbed, hjournal, List.pairwise_append, List.pairwise_cons] at h hother
  rw [hjournal, List.mem_append, List.mem_cons] at hmem
  rcases hmem with hfront | rfl | hback
  · rw [← htransaction]
    exact (hother.2.2 others hfront own (List.mem_cons_self ..) hothers).symm
  · rw [← hothers, htransaction]
  · rw [← hothers]
    exact h.2.1.1 others hback htransaction

/-! ### What the requests of an orderly run keep -/

/-- The tree is a hierarchy, and is one again after an undisturbed transaction is aborted. -/
structure Reversible (store : Store) : Prop where
  /-- Everything stored has a collection as its parent. -/
  closed : store.tree.ParentClosed
  /-- Only a transaction that has applied mutations has anything to put back. -/
  untouched : ∀ transaction log, store.requireActive transaction = .ok log →
    (∀ entry ∈ store.journal, entry.transaction ≠ transaction) → log.replaced = []
  /-- Aborting an undisturbed transaction leads to a hierarchy. -/
  undone : ∀ transaction log, store.requireActive transaction = .ok log →
    store.Undisturbed transaction → (store.tree.undo log.replaced).ParentClosed

namespace Reversible

theorem initial : Reversible .initial where
  closed path parent hstored hparent := by
    -- Only the root collection is stored, and it has no parent.
    have hroot : path = .root := by
      rw [PathMap.contains, Store.initial, PathMap.get?_insert] at hstored
      split at hstored
      next heq => exact heq.symm
      next => cases hstored
    have hnone : Path.root.parent? = none := by decide +kernel
    rw [hroot, hnone] at hparent
    cases hparent
  untouched _ _ hlog := nomatch hlog
  undone _ _ hlog := nomatch hlog

/-- Of two active transactions that nobody has disturbed, one has nothing to put back. -/
theorem replaced_eq_nil (h : store.Reversible) {otherLog : TransactionLog}
    (hlog : store.requireActive transaction = .ok log)
    (hother : store.requireActive other = .ok otherLog) (hne : other ≠ transaction)
    (hundisturbed : store.Undisturbed transaction)
    (hotherUndisturbed : store.Undisturbed other) : log.replaced = [] ∨ otherLog.replaced = [] := by
  by_cases hown : ∃ entry ∈ store.journal, entry.transaction = transaction
  · right
    obtain ⟨own, hown, htransaction⟩ := hown
    refine h.untouched other otherLog hother fun entry hmem hentry => hne ?_
    exact hundisturbed.eq_of_mem hotherUndisturbed hown hmem htransaction hentry
  · left
    refine h.untouched transaction log hlog fun entry hmem hentry => hown ⟨entry, hmem, hentry⟩

/-- Applying a mutation keeps the hierarchy. -/
theorem applied (h : store.Reversible) {mutation : Mutation} {writes : List Write}
    (hlog : store.requireActive transaction = .ok log)
    (hwrites : store.tree.writes mutation = .ok writes) :
    (store.applied transaction mutation log writes).Reversible := by
  have hclosed := h.closed.applyWrites (Tree.writes_eq_ok_iff.1 hwrites)
  refine ⟨hclosed, fun other found hfound hnone => ?_, fun other found hfound hother => ?_⟩
  · rcases requireActive_of_set rfl hfound with ⟨rfl, -, -⟩ | ⟨-, hfound⟩
    · exact absurd rfl (hnone _ (List.mem_append_right _ (List.mem_singleton_self _)))
    · exact h.untouched other found hfound fun entry hmem =>
        hnone entry (List.mem_append_left _ hmem)
  · rcases requireActive_of_set rfl hfound with ⟨rfl, rfl, -⟩ | ⟨hne, hfound⟩
    · -- The writes of the mutation are taken back first.
      show ((store.tree.applyWrites writes).1.undo
        ((store.tree.applyWrites writes).2 ++ log.replaced)).ParentClosed
      rw [Tree.undo_append, Tree.undo_applyWrites]
      exact h.undone other log hlog (hother.of_append rfl)
    · -- The mutation disturbs every other transaction that has applied one.
      have hnothing : found.replaced = [] := by
        refine h.untouched other found hfound fun entry hmem hentry => hne ?_
        exact ((List.pairwise_append.1 hother).2.2 entry hmem _ (List.mem_singleton_self _)
          hentry).symm
      rw [hnothing]
      exact hclosed

/-- Aborting a transaction that nobody has disturbed keeps the hierarchy. -/
theorem aborted (h : store.Reversible) (hlog : store.requireActive transaction = .ok log)
    (hundisturbed : store.Undisturbed transaction) :
    Reversible { store with
      tree := store.tree.undo log.replaced
      transactions := store.transactions.set transaction ⟨.aborted, []⟩ } := by
  have hclosed := h.undone transaction log hlog hundisturbed
  -- The transaction is not active any more, so only the others matter.
  refine ⟨hclosed, fun other found hfound hnone => ?_, fun other found hfound hother => ?_⟩
  · obtain ⟨-, hfound⟩ := (requireActive_of_set rfl hfound).resolve_left (by simp)
    exact h.untouched other found hfound hnone
  · obtain ⟨hne, hfound⟩ := (requireActive_of_set rfl hfound).resolve_left (by simp)
    rcases h.replaced_eq_nil hlog hfound hne hundisturbed hother with hnothing | hnothing
    · show ((store.tree.undo log.replaced).undo found.replaced).ParentClosed
      rw [hnothing]
      exact h.undone other found hfound hother
    · rw [hnothing]
      exact hclosed

/-- The requests of an orderly run keep the hierarchy. -/
theorem respond (h : store.Reversible) (horderly : store.AbortsUndisturbed request) :
    (store.respond request).2.Reversible := by
  have hresponds := store.responds_respond request
  generalize (store.respond request).1 = answer, (store.respond request).2 = after at hresponds ⊢
  cases hresponds with
  | opened =>
    refine ⟨h.closed, fun other found hfound hnone => ?_, fun other found hfound hother => ?_⟩
    · rcases requireActive_of_set rfl hfound with ⟨-, rfl, -⟩ | ⟨-, hfound⟩
      · rfl
      · exact h.untouched other found hfound hnone
    · rcases requireActive_of_set rfl hfound with ⟨-, rfl, -⟩ | ⟨-, hfound⟩
      · exact h.closed
      · exact h.undone other found hfound hother
  | refused => exact h
  | performed hlog hwrites => exact h.applied hlog hwrites
  | committed hlog =>
    refine ⟨h.closed, fun other found hfound hnone => ?_, fun other found hfound hother => ?_⟩
    · obtain ⟨-, hfound⟩ := (requireActive_of_set rfl hfound).resolve_left (by simp)
      exact h.untouched other found hfound hnone
    · obtain ⟨-, hfound⟩ := (requireActive_of_set rfl hfound).resolve_left (by simp)
      exact h.undone other found hfound hother
  | aborted hlog =>
    -- The run is orderly, so nobody has disturbed the transaction.
    exact h.aborted hlog (horderly (status?_eq_active_iff.2 ⟨_, hlog⟩))

end Reversible

theorem reversible_run (h : store.Reversible) {requests : List Request}
    (horderly : store.Orderly requests) : (store.run requests).Reversible := by
  induction requests generalizing store with
  | nil => exact h
  | cons request rest ih => exact ih (h.respond horderly.1) horderly.2

/-- After every orderly run, everything stored has a collection as its parent; so nothing is stored
below a document, and nothing at or below a path that is accepted as free. -/
theorem parentClosed_run {requests : List Request} (horderly : Orderly initial requests) :
    (initial.run requests).tree.ParentClosed ∧
    (∀ path content, (initial.run requests).tree.get? path = some (.document content) →
      ∀ below : Path, below.isBelow path → (initial.run requests).tree.get? below = none) ∧
    ∀ path, (initial.run requests).tree.requireFree path = .ok () →
      ∀ below : Path, below.startsWith path → (initial.run requests).tree.get? below = none := by
  have hclosed := (reversible_run .initial horderly).closed
  refine ⟨hclosed, fun path content hdocument below hbelow => ?_, fun path hfree below hbelow => ?_⟩
  · rw [Path.isBelow, Bool.and_eq_true, bne_iff_ne] at hbelow
    exact hclosed.get?_below (by simp [hdocument]) hbelow.2 hbelow.1
  · exact hclosed.get?_below_vacant (Tree.requireFree_eq_ok_iff.1 hfree).vacant hbelow

/-- A run in which a collection is moved and then deleted, and the deletion is taken back while
another transaction is open that has not changed anything yet. -/
def puttingBack : List Request :=
  [.beginTransaction,
    .perform 1 (.createCollection (topLevel 'a')),
    .perform 1 (.createDocument ((topLevel 'a').append .root) ⟨#[1]⟩),
    .perform 1 (.moveCollection (topLevel 'a') (topLevel 'b')),
    .commit 1, .beginTransaction, .beginTransaction,
    .perform 2 (.deleteCollection (topLevel 'b')),
    .perform 3 (.deleteCollection (topLevel 'b')),
    .perform 2 (.createDocument (topLevel 'b') ⟨#[2]⟩),
    .abort 2,
    .perform 3 (.copyCollection (topLevel 'b') (topLevel 'c'))]

/-- After the run the document is found in the copy, with nothing below it, and the place where it
was created is free all the way down. -/
theorem parentClosed_run_puttingBack :
    Orderly initial puttingBack ∧ (initial.run puttingBack).tree.ParentClosed ∧
    (initial.run puttingBack).tree.get? ((topLevel 'c').append .root) = some (.document ⟨#[1]⟩) ∧
    (∀ below : Path, below.isBelow ((topLevel 'c').append .root) →
      (initial.run puttingBack).tree.get? below = none) ∧
    ∀ below : Path, below.startsWith (topLevel 'a') →
      (initial.run puttingBack).tree.get? below = none := by
  have horderly : Orderly initial puttingBack := by decide +kernel
  have hdocument : (initial.run puttingBack).tree.get? ((topLevel 'c').append .root) =
      some (.document ⟨#[1]⟩) := by decide +kernel
  obtain ⟨hclosed, hbelow, hfree⟩ := parentClosed_run horderly
  refine ⟨horderly, hclosed, hdocument, hbelow _ _ hdocument, hfree _ ?_⟩
  exact Tree.requireFree_eq_ok_iff.2 ⟨by decide +kernel, by decide +kernel⟩

/-- In a run that is not orderly, a document can be put back below nothing. -/
example :
    let disturbed : Store := initial.run
      [.beginTransaction, .beginTransaction,
        .perform 1 (.createCollection (topLevel 'a')),
        .perform 1 (.createDocument ((topLevel 'a').append .root) ⟨#[1]⟩), .commit 1,
        .beginTransaction,
        .perform 2 (.deleteDocument ((topLevel 'a').append .root)),
        .perform 3 (.deleteCollection (topLevel 'a')),
        .abort 2]
    disturbed.tree.get? ((topLevel 'a').append .root) = some (.document ⟨#[1]⟩) ∧
      disturbed.tree.get? (topLevel 'a') = none := by
  decide +kernel

end DocTree.Store
