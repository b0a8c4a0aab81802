import DocTree.Engine.Perform

/-!
# Transactions through the database

Ending a transaction settles what is recorded about it: the collections whose configuration it may
have changed are forgotten, and, if its changes were taken back, dropped from the cache, since
configuration may have been resolved from the changes meanwhile.

## Main definitions

* `Database.commit` and `Database.abort`: end a transaction.
* `Environment.transaction`: runs a body in a transaction of its own.
-/

namespace DocTree

namespace Database

/-- Forgets the collections recorded for a transaction, and drops their configuration from the
cache if the changes of the transaction were taken back. -/
def closeRecord (database : Database) (transaction : TransactionId) (rolledBack : Bool) :
    Database :=
  match database.configChanges.get? transaction with
  | none => database
  | some collections =>
    let database := { database with configChanges := database.configChanges.erase transaction }
    -- What was resolved since the changes may rest on them.
    if rolledBack then database.invalidateAll collections else database

/-- Ends a transaction in the store and settles what is recorded about it. -/
def endWith (database : Database) (transaction : TransactionId)
    (result : Except StoreError Store) (rolledBack : Bool) :
    Except MutationError Unit × Database :=
  match result with
  | .ok store => (.ok (), { database with store }.closeRecord transaction rolledBack)
  | .error e => (.error (.storage e), database.closeRecord transaction true)

/-- Commits a transaction. One that cannot be committed counts as taken back. -/
def commit (database : Database) (transaction : TransactionId) :
    Except MutationError Unit × Database :=
  database.endWith transaction (database.store.commit transaction) false

/-- Aborts a transaction. -/
def abort (database : Database) (transaction : TransactionId) :
    Except MutationError Unit × Database :=
  database.endWith transaction (database.store.abort transaction) true

end Database

namespace Session

variable {σ : Type}

/-- Opens a transaction. -/
def beginTransaction (session : Session σ) : TransactionId × Session σ :=
  let (transaction, store) := session.database.store.beginTransaction
  (transaction, { session with database := { session.database with store } })

/-- Commits a transaction. -/
def commit (session : Session σ) (transaction : TransactionId) :
    Except MutationError Unit × Session σ :=
  let (result, database) := session.database.commit transaction
  (result, { session with database })

/-- Aborts a transaction. -/
def abort (session : Session σ) (transaction : TransactionId) :
    Except MutationError Unit × Session σ :=
  let (result, database) := session.database.abort transaction
  (result, { session with database })

end Session

namespace Environment

variable {L : HookLanguage} {σ α : Type}

/-- Runs a body in a new transaction, which is committed if the body succeeds and aborted if it
fails. The failure of the body is what counts, whether or not the abort succeeds. -/
def transaction (env : Environment L σ) (body : Script L (Except MutationError α))
    (session : Session σ) : Except MutationError α × Session σ :=
  let (transaction, session) := session.beginTransaction
  let (result, session) := body.run (env.perform transaction)
    (fun op => env.evaluator.handle op transaction) session
  match result with
  | .ok value =>
    let (ended, session) := session.commit transaction
    (ended.map fun () => value, session)
  -- The failure of the body is the answer, even if the abort fails as well.
  | .error e => (.error e, (session.abort transaction).2)

/-- Performs one mutation in a transaction of its own. -/
def performAlone (env : Environment L σ) (mutation : Mutation) (session : Session σ) :
    Except MutationError Unit × Session σ :=
  env.transaction (.perform mutation .done) session

end Environment

end DocTree
