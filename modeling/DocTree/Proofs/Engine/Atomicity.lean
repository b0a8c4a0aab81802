import DocTree.Proofs.Engine.Reachable
import DocTree.Proofs.Store.Runs

/-!
# Atomic transactions

Once the configuration root was seen to, there is one way only in which a body and its hooks get at
the tree: the store applies a mutation in their transaction, and remembers what it replaced. So
whatever they did and however much of it failed, undoing what the transaction remembers leads back
to the tree in which it was opened.

## Main definitions

* `Database.Settled`: a transaction was ended.
* `Environment.runBody`: runs a body in a transaction.

## Main results

* `Environment.performWith_readyWith`: what applying mutations keeps is kept by mutations performed
  with all their hooks.
* `Environment.transaction_atomic`: a body that fails leaves the tree as it was, and one that
  succeeds is committed.
-/

namespace DocTree

variable {L : HookLanguage} {α σ : Type}

/-! ### What mutations keep with all their hooks -/

namespace Environment

variable {env : Environment L σ} {host : Host σ} {transaction : TransactionId} {P : Store → Prop}

/-- If the mutations that hooks ask for keep what applying mutations keeps, then performing a
mutation with its hooks keeps it. -/
theorem performWith_readyWith (hkeeps : env.evaluator.KeepsDatabase)
    (hP : Store.KeptByPerform transaction P)
    (hhost : ∀ mutation session, session.database.ReadyWith P →
      (host transaction mutation session).2.database.ReadyWith P)
    (mutation : Mutation) (session : Session σ) (h : session.database.ReadyWith P) :
    (env.performWith host transaction mutation session).2.database.ReadyWith P := by
  have hinv : env.DatabaseInvariant host transaction (Database.ReadyWith P) := .readyWith hhost
  refine hinv.performWith hinv hkeeps
    (fun _ _ hready => hready) (fun _ _ _ _ hready hstore => ?_) (fun ran hran => ?_) h
  · exact ⟨hready.1, hP _ _ _ hready.2 hstore⟩
  · refine ⟨Session.rootReady_dropConfig.trans hran.1, ?_⟩
    rw [Session.store_dropConfig]
    exact hran.2

theorem perform_readyWith (hkeeps : env.evaluator.KeepsDatabase)
    (hP : Store.KeptByPerform transaction P) (mutation : Mutation) (session : Session σ)
    (h : session.database.ReadyWith P) :
    (env.perform transaction mutation session).2.database.ReadyWith P :=
  perform_induction (K := fun host => ∀ mutation session, session.database.ReadyWith P →
      (host transaction mutation session).2.database.ReadyWith P)
    (fun _ _ hready => hready) (fun _ hhost => performWith_readyWith hkeeps hP hhost)
    mutation session h

end Environment

/-! ### The end of a transaction -/

/-- A transaction was ended: where it stands, the tree that this leads to, and that no change of
configuration is recorded for it any more. -/
structure Database.Settled (transaction : TransactionId) (status : TransactionStatus) (tree : Tree)
    (database : Database) : Prop where
  /-- Where the transaction stands. -/
  status : database.store.status? transaction = some status
  /-- The tree. -/
  tree : database.store.tree = tree
  /-- Nothing is recorded. -/
  forgotten : database.configChanges.get? transaction = none

theorem Database.settled_endWith {database : Database} {transaction : TransactionId} {store : Store}
    {status : TransactionStatus} {tree : Tree} (hstatus : store.status? transaction = some status)
    (htree : store.tree = tree) (rolledBack : Bool) :
    (database.endWith transaction (.ok store) rolledBack).2.Settled transaction status tree where
  status := by simpa [endWith] using hstatus
  tree := by simpa [endWith] using htree
  forgotten := by simp [endWith, get?_configChanges_closeRecord]

theorem Database.settled_commit {database : Database} {transaction : TransactionId}
    {log : TransactionLog} (hlog : database.store.requireActive transaction = .ok log) :
    (database.commit transaction).1 = .ok () ∧
    (database.commit transaction).2.Settled transaction .committed database.store.tree := by
  rw [commit, Store.commit_eq_ok hlog]
  refine ⟨rfl, settled_endWith ?_ ?_ false⟩
  · simp [Store.status?, Table.get?_set]
  · rfl

theorem Database.settled_abort {database : Database} {transaction : TransactionId}
    {log : TransactionLog} (hlog : database.store.requireActive transaction = .ok log) :
    (database.abort transaction).2.Settled transaction .aborted
      (database.store.tree.undo log.replaced) := by
  rw [abort, Store.abort_eq_ok hlog]
  refine settled_endWith ?_ ?_ true
  · simp [Store.status?, Table.get?_set]
  · rfl

/-! ### Transactions -/

namespace Environment

variable {env : Environment L σ} {transaction : TransactionId}

/-- Runs a body in a transaction. -/
def runBody (env : Environment L σ) (transaction : TransactionId)
    (body : Script L (Except MutationError α)) (session : Session σ) :
    Except MutationError α × Session σ :=
  body.run (env.perform transaction) (fun op => env.evaluator.handle op transaction) session

theorem runBody_readyWith {P : Store → Prop} (hkeeps : env.evaluator.KeepsDatabase)
    (hP : Store.KeptByPerform transaction P) (body : Script L (Except MutationError α))
    {session : Session σ} (h : session.database.ReadyWith P) :
    (env.runBody transaction body session).2.database.ReadyWith P := by
  refine Script.run_invariant (P := fun state : Session σ => state.database.ReadyWith P)
    (perform_readyWith hkeeps hP) (fun op state hready => ?_) body h
  rw [hkeeps]
  exact hready

theorem transaction_eq_of_ok {body : Script L (Except MutationError α)}
    {session ran : Session σ} {value : α}
    (hran : env.runBody session.beginTransaction.1 body session.beginTransaction.2 =
      (.ok value, ran)) (hcommit : (ran.commit session.beginTransaction.1).1 = .ok ()) :
    env.transaction body session = (.ok value, (ran.commit session.beginTransaction.1).2) := by
  rw [runBody] at hran
  rw [Environment.transaction]
  dsimp only
  rw [hran]
  dsimp only
  rw [hcommit]
  rfl

theorem transaction_eq_of_error {body : Script L (Except MutationError α)}
    {session ran : Session σ} {error : MutationError}
    (hran : env.runBody session.beginTransaction.1 body session.beginTransaction.2 =
      (.error error, ran)) :
    env.transaction body session = (.error error, (ran.abort session.beginTransaction.1).2) := by
  rw [runBody] at hran
  rw [Environment.transaction]
  dsimp only
  rw [hran]

/-- Once the configuration root was seen to, running a body in a transaction of its own gives what
the body gives. If the body fails, the transaction is aborted, and the tree is the one in which it
was opened, whatever the body and the hooks did to it. If the body succeeds, the transaction is
committed, and the tree is the one that the body leaves. -/
theorem transaction_atomic (hkeeps : env.evaluator.KeepsDatabase) {session : Session σ}
    (hready : session.database.resolver.rootReady = true)
    (body : Script L (Except MutationError α)) :
    let transaction := session.beginTransaction.1
    let ran := env.runBody transaction body session.beginTransaction.2
    let ended := env.transaction body session
    ended.1 = ran.1 ∧
    (∀ error, ended.1 = .error error →
      ended.2.database.Settled transaction .aborted session.database.store.tree) ∧
    ∀ value, ended.1 = .ok value →
      ended.2.database.Settled transaction .committed ran.2.database.store.tree := by
  intro transaction ran ended
  have hran : ran.2.database.ReadyWith
      (Store.UndoesTo session.database.store.tree transaction) := by
    refine runBody_readyWith hkeeps (Store.keptByPerform_undoesTo _ _) body ⟨hready, ?_⟩
    exact session.database.store.undoesTo_beginTransaction
  obtain ⟨-, log, hlog, htree⟩ := hran
  cases hresult : ran.1 with
  | ok value =>
    obtain ⟨hcommit, hsettled⟩ := Database.settled_commit hlog
    have hended : ended = _ := transaction_eq_of_ok (Prod.ext hresult rfl) hcommit
    rw [hended]
    exact ⟨rfl, nofun, fun _ _ => hsettled⟩
  | error error =>
    have hsettled := Database.settled_abort hlog
    have hended : ended = _ := transaction_eq_of_error (Prod.ext hresult rfl)
    rw [hended, ← htree]
    exact ⟨rfl, fun _ _ => hsettled, nofun⟩

/-- An environment in which every program creates the same collection. -/
def creatingCopies : Environment .mutationsOnly Unit :=
  creating (Store.topLevel 'c')

/-- A body that creates a collection. -/
def creatingOnce : Script .mutationsOnly (Except MutationError Unit) :=
  .perform (.createCollection (Store.topLevel 'a')) fun reply => .done reply

/-- A body that deletes the document by which a hook was declared, creates a collection, and then
gives up. -/
def givingUp : Script .mutationsOnly (Except MutationError Unit) :=
  .perform (.deleteDocument ((rootLevel.child? Settings.default.fileName.toList).getD .root))
    fun _ =>
  .perform (.createCollection (Store.topLevel 'a')) fun _ =>
  .done (.error (.storage (.notFound .root)))

/-- How the body ends does not depend on what its mutations lead to. -/
theorem fst_runBody_givingUp (transaction : TransactionId) (session : Session Unit) :
    (creatingCopies.runBody transaction givingUp session).1 =
      .error (.storage (.notFound .root)) := rfl

/-- With a declared hook that creates a collection, a body that creates another one succeeds. If a
body gives up instead, the collections that it and the hook have created are gone. -/
theorem transaction_atomic_declaringRun :
    creatingCopies.evaluator.KeepsDatabase ∧
    declaringRun.database.resolver.rootReady = true ∧
    (creatingCopies.runBody 3 givingUp declaringRun.beginTransaction.2).2.database.store.tree.get?
      (Store.topLevel 'c') = some .collection ∧
    (creatingCopies.transaction givingUp declaringRun).1 = .error (.storage (.notFound .root)) ∧
    (creatingCopies.transaction givingUp declaringRun).2.database.store.tree =
      declaringRun.database.store.tree ∧
    (creatingCopies.transaction creatingOnce declaringRun).1 = .ok () ∧
    (creatingCopies.transaction creatingOnce declaringRun).2.database.store.status? 3 =
      some .committed := by
  have hkeeps : creatingCopies.evaluator.KeepsDatabase :=
    Evaluator.keepsDatabase_of_mutationsOnly _
  have hready : declaringRun.database.resolver.rootReady = true := by decide +kernel
  have hnumber : declaringRun.beginTransaction.1 = 3 := by decide +kernel
  obtain ⟨hresult, hfailed, -⟩ := transaction_atomic hkeeps hready givingUp
  have hgaveUp := hresult.trans (fst_runBody_givingUp _ _)
  obtain ⟨-, -, hsucceeded⟩ := transaction_atomic hkeeps hready creatingOnce
  rw [hnumber] at hsucceeded
  refine ⟨hkeeps, hready, by decide +kernel, hgaveUp, (hfailed _ hgaveUp).tree, ?_⟩
  have hsucceeds : (creatingCopies.transaction creatingOnce declaringRun).1.isOk = true := by
    decide +kernel
  cases hresult : (creatingCopies.transaction creatingOnce declaringRun).1 with
  | ok value => exact ⟨rfl, (hsucceeded value hresult).status⟩
  | error error =>
    rw [hresult] at hsucceeds
    cases hsucceeds

end Environment

end DocTree
