import DocTree.Config.Resolver
import DocTree.Hook.Context
import DocTree.Hook.Script
import DocTree.Hook.FailureFeed

/-!
# The state of a database

Everything that mutations and their hooks read and change, and what stays the same meanwhile.

## Main definitions

* `Database`: the store, the resolver, the locks, the feed of failures, and the record of
  collections whose configuration open transactions have changed.
* `Session`: a database together with the state of the hook evaluator and one context.
* `Evaluator`: compiles hook programs.
* `Environment`: the settings and the evaluator.
-/

namespace DocTree

/-- The state of a database. -/
structure Database where
  /-- The store. -/
  store : Store
  /-- What is kept for resolving configurations. -/
  resolver : Resolver
  /-- The locks on documents. -/
  locks : LockTable
  /-- The clock by which locks expire. -/
  clock : SteppedClock
  /-- The failures of hooks that ran after a change. -/
  failures : FailureFeed
  /-- The collections below which each transaction may have changed configuration. -/
  configChanges : Table TransactionId (List Path)

/-- The state of a new database. -/
def Database.initial (settings : Settings) : Database where
  store := .initial
  resolver := .initial
  locks := .empty
  clock := default
  failures := .keeping settings.historyLimit
  configChanges := .empty

/-- A database, the state `σ` of its hook evaluator, and the context of one thread of control. -/
structure Session (σ : Type) where
  /-- The database. -/
  database : Database
  /-- The state of the hook evaluator. -/
  evaluation : σ
  /-- The context. -/
  context : Context

/-- Compiles hook programs of a language `L` and carries out the operations of that language. -/
structure Evaluator (L : HookLanguage) (σ : Type) where
  /-- Compiles the program of a source. -/
  compile : ProgramSource → σ → Except ProgramError (Program L) × σ
  /-- Carries out an operation for a program that runs in a transaction. -/
  handle : (op : L.Op) → TransactionId → Session σ → L.Reply op × Session σ

/-- What stays the same while a database is used. -/
structure Environment (L : HookLanguage) (σ : Type) where
  /-- The settings. -/
  settings : Settings
  /-- The hook evaluator. -/
  evaluator : Evaluator L σ

/-- Someone who performs mutations in a transaction on behalf of running hooks. -/
abbrev Host (σ : Type) :=
  TransactionId → Mutation → Session σ → Except MutationError Unit × Session σ

namespace Database

/-- The effective configuration of a collection. -/
def resolve (database : Database) (settings : Settings) (collection : Path) :
    Except ConfigError CacheEntry × Database :=
  let (result, resolver, store) := database.resolver.resolve settings database.store collection
  (result, { database with resolver, store })

/-- Creates the configuration root. -/
def ensureRoot (database : Database) (settings : Settings) : Except ConfigError Unit × Database :=
  let (result, resolver, store) := database.resolver.ensureRoot settings database.store
  (result, { database with resolver, store })

/-- The current instant. -/
def now (database : Database) : Instant :=
  database.clock.now

/-- Drops the cached configurations at and below several paths. -/
def invalidateAll (database : Database) (paths : List Path) : Database :=
  { database with resolver := (database.resolver.invalidateAll paths).2 }

end Database

end DocTree
