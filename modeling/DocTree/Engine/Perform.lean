import DocTree.Engine.HookRun

/-!
# Performing mutations

The way of a mutation through the database: the locks are checked, the hooks of the first phase
run, the store applies the change, the hooks of the second phase run, locks on what was removed are
dropped, and configuration that may have changed is dropped from the cache.

## Main definitions

* `LockTable.conflict`: the lock that stands in the way of a mutation.
* `Environment.performWith`: performs a mutation, with a host for the mutations of its hooks.
* `Environment.perform`: performs a mutation.
-/

namespace DocTree

namespace LockTable

/-- The live token of somebody else on a document. An expired one is dropped. -/
def foreign (table : LockTable) (now : Instant) (principal : Principal) (path : Path) :
    Option LockToken × LockTable :=
  let (token, table) := table.current now path
  (token.filter fun token => token.owner ≠ principal, table)

/-- The first live token of somebody else at or below a path. All expired tokens are dropped. -/
def foreignUnder (table : LockTable) (now : Instant) (principal : Principal) (path : Path) :
    Option LockToken × LockTable :=
  let (tokens, table) := table.under now path
  (tokens.find? fun token => token.owner ≠ principal, table)

/-- The live token of somebody else that stands in the way of a mutation. -/
def conflict (table : LockTable) (now : Instant) (principal : Principal) :
    Mutation → Option LockToken × LockTable
  | .createDocument path _ | .updateDocument path _ | .deleteDocument path =>
    table.foreign now principal path
  | .copyDocument _ destination => table.foreign now principal destination
  | .moveDocument source destination =>
    match table.foreign now principal source with
    | (some token, table) => (some token, table)
    | (none, table) => table.foreign now principal destination
  | .moveCollection source _ => table.foreignUnder now principal source
  | .deleteCollection path => table.foreignUnder now principal path
  | .createCollection _ | .updateCollection _ | .copyCollection _ _ => (none, table)

/-- Drops the tokens on what a mutation has removed. -/
def releaseFor (table : LockTable) : Mutation → LockTable
  | .deleteDocument path => (table.release path).2
  | .moveDocument source _ => (table.release source).2
  | .deleteCollection path => (table.releaseUnder path).2
  | .moveCollection source _ => (table.releaseUnder source).2
  | _ => table

end LockTable

namespace Database

/-- Records collections below which a transaction may have changed configuration. -/
def recordChanges (database : Database) (transaction : TransactionId) (collections : List Path) :
    Database :=
  if collections.isEmpty then database
  else
    let known := database.configChanges.getD transaction []
    { database with
      configChanges := database.configChanges.set transaction
        (known ++ collections.filter fun path => !known.contains path) }

end Database

namespace Session

variable {σ : Type}

/-- Checks that no lock of somebody else stands in the way of a mutation. Only requests made for a
principal are checked, and only if the settings ask for it. -/
def checkLocks (session : Session σ) (settings : Settings) (mutation : Mutation) :
    Except MutationError Unit × Session σ :=
  match settings.enforceLocks, session.context.principal with
  | true, some principal =>
    let (token, locks) :=
      session.database.locks.conflict session.database.now principal mutation
    let session := { session with database := { session.database with locks } }
    match token with
    | some token => (.error (.locked token.path token.owner), session)
    | none => (.ok (), session)
  | _, _ => (.ok (), session)

/-- Applies a mutation to the store. -/
def applyToStore (session : Session σ) (transaction : TransactionId) (mutation : Mutation) :
    Except StoreError Unit × Session σ :=
  match session.database.store.perform transaction mutation with
  | .ok store => (.ok (), { session with database := { session.database with store } })
  | .error e => (.error e, session)

/-- Drops the locks on what a mutation has removed. -/
def dropLocks (session : Session σ) (mutation : Mutation) : Session σ :=
  { session with
    database := { session.database with locks := session.database.locks.releaseFor mutation } }

/-- Drops the configuration that a mutation makes obsolete from the cache, and records that its
transaction did so. What is configured at and below a collection that is gone is dropped too. -/
def dropConfig (session : Session σ) (settings : Settings) (transaction : TransactionId)
    (mutation : Mutation) : Session σ :=
  let affected := settings.changeScope mutation.source mutation.destination?
  -- A moved or deleted collection is no longer there to have a configuration.
  let gone :=
    if mutation.actsOnCollection && mutation.vacatesSource then [mutation.source] else []
  let database := session.database.invalidateAll (affected ++ gone)
  { session with database := database.recordChanges transaction affected }

end Session

namespace Environment

variable {L : HookLanguage} {σ : Type}

/-- Performs a mutation in a transaction. The mutations that its hooks ask for are performed by
`host`. -/
def performWith (env : Environment L σ) (host : Host σ) : Host σ :=
  fun transaction mutation session =>
    let occasion := Occasion.of transaction mutation
    match session.checkLocks env.settings mutation with
    | (.error e, session) => (.error e, session)
    | (.ok (), session) =>
      -- A failure from here on leaves whatever the hooks have changed in the transaction.
      match env.runBefore host occasion session with
      | (.error e, session) => (.error (.trigger e), session)
      | (.ok (), session) =>
        match session.applyToStore transaction mutation with
        -- The second phase will not come.
        | (.error e, session) => (.error (.storage e), session.discardRun mutation.source)
        | (.ok (), session) =>
          let session := env.runAfter host occasion session
          (.ok (), (session.dropLocks mutation).dropConfig env.settings transaction
            mutation)

/-- A host that performs nothing. -/
def idleHost : Host σ :=
  fun _ _ session => (.ok (), session)

/-- Performs a mutation on behalf of a running hook. The context of a running hook is engaged, so
no further hooks run, and nobody asks for the host of their mutations. -/
def performNested (env : Environment L σ) : Host σ :=
  env.performWith idleHost

/-- Performs a mutation in a transaction, with the hooks that are bound to it. -/
def perform (env : Environment L σ) : Host σ :=
  env.performWith env.performNested

end Environment

end DocTree
