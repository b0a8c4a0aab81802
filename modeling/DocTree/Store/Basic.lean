import DocTree.Store.Tree
import DocTree.Table

/-!
# The store

A tree of resources together with the transactions that change it. Changes are made in place and
seen by every transaction at once; each transaction remembers what its writes replaced, so that
they can be taken back.

## Main definitions

* `Store`: the tree, the transactions, and every mutation applied so far.
* `Store.beginTransaction`, `Store.perform`, `Store.commit`, `Store.abort`: its operations.
-/

namespace DocTree

/-- Where a transaction stands. -/
inductive TransactionStatus where
  /-- It can make changes. -/
  | active
  /-- Its changes are permanent. -/
  | committed
  /-- Its changes were taken back. -/
  | aborted
  deriving DecidableEq, Repr

/-- What the store keeps about a transaction. -/
structure TransactionLog where
  /-- Where the transaction stands. -/
  status : TransactionStatus
  /-- What its writes replaced, the last write first. -/
  replaced : List Write
  deriving DecidableEq

/-- A mutation that was applied, with the transaction it was applied in. -/
structure JournalEntry where
  /-- The transaction. -/
  transaction : TransactionId
  /-- The mutation. -/
  mutation : Mutation
  deriving DecidableEq

/-- A tree of resources and its transactions. -/
structure Store where
  /-- What is stored at each path. -/
  tree : Tree
  /-- Every transaction opened so far. -/
  transactions : Table TransactionId TransactionLog
  /-- The number that the next transaction gets. -/
  nextTransaction : TransactionId
  /-- Every mutation applied so far, in order, those of aborted transactions included. -/
  journal : List JournalEntry
  deriving DecidableEq

namespace Store

/-- The store that holds only the root collection. -/
def initial : Store where
  tree := PathMap.empty.insert .root .collection
  transactions := .empty
  nextTransaction := 1
  journal := []

instance : Inhabited Store := ⟨initial⟩

/-- Where a transaction stands, if it was ever opened. -/
def status? (store : Store) (transaction : TransactionId) : Option TransactionStatus :=
  (store.transactions.get? transaction).map TransactionLog.status

/-- The log of a transaction that can make changes. -/
def requireActive (store : Store) (transaction : TransactionId) :
    Except StoreError TransactionLog :=
  match store.transactions.get? transaction with
  | some ⟨.active, replaced⟩ => .ok ⟨.active, replaced⟩
  | _ => .error (.transactionNotActive transaction)

/-- Opens a transaction under the next number. -/
def beginTransaction (store : Store) : TransactionId × Store :=
  (store.nextTransaction,
    { store with
      transactions := store.transactions.set store.nextTransaction ⟨.active, []⟩
      nextTransaction := store.nextTransaction + 1 })

/-- Applies a mutation in a transaction: as a whole, or not at all. -/
def perform (store : Store) (transaction : TransactionId) (mutation : Mutation) :
    Except StoreError Store := do
  let log ← store.requireActive transaction
  -- Everything is validated before the first write, so a refusal changes nothing.
  let writes ← store.tree.writes mutation
  let (tree, replaced) := store.tree.applyWrites writes
  return { store with
    tree
    transactions := store.transactions.set transaction ⟨.active, replaced ++ log.replaced⟩
    journal := store.journal ++ [⟨transaction, mutation⟩] }

/-- Makes the changes of a transaction permanent. -/
def commit (store : Store) (transaction : TransactionId) : Except StoreError Store := do
  let _ ← store.requireActive transaction
  return { store with transactions := store.transactions.set transaction ⟨.committed, []⟩ }

/-- Takes the changes of a transaction back, the last one first. -/
def abort (store : Store) (transaction : TransactionId) : Except StoreError Store := do
  let log ← store.requireActive transaction
  return { store with
    tree := store.tree.undo log.replaced
    transactions := store.transactions.set transaction ⟨.aborted, []⟩ }

/-- Whether anything is stored at a path. -/
def contains (store : Store) (path : Path) : Bool :=
  store.tree.contains path

end Store

end DocTree
