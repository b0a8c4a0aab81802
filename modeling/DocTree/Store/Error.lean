import DocTree.Path.Basic

/-!
# Store errors

Why the store refuses an operation, and how each refusal is worded.

## Main definitions

* `TransactionId`: the number of a transaction.
* `StoreError`: the causes, with their wording `StoreError.message`.
* `Path.ofText` and `Path.join`: reading a path and appending a segment, with a refusal as a
  store error.
-/

namespace DocTree

/-- The number of a transaction. Numbers count up from one in 64 bits. -/
abbrev TransactionId := UInt64

/-- How a transaction is named in messages. -/
def TransactionId.name (id : TransactionId) : String :=
  "txn:" ++ toString id.toNat

/-- The kinds of resources. -/
inductive ResourceKind where
  /-- A collection. -/
  | collection
  /-- A document. -/
  | document
  deriving DecidableEq, Repr

/-- How a kind of resource is named in messages. -/
def ResourceKind.name : ResourceKind → String
  | collection => "collection"
  | document => "document"

/-- Why a path is not accepted. -/
inductive PathRefusal where
  /-- The text is not the text of a path. -/
  | malformed (fault : PathFault)
  /-- A text that cannot be a segment was to be appended. -/
  | badSegment
  /-- A collection was to be copied or moved to itself or below itself. -/
  | intoItself
  deriving DecidableEq, Repr

/-- How a fault in the text of a path is worded. -/
def PathFault.message : PathFault → String
  | notAbsolute => "path must be absolute"
  | noSegments => "path has no segments"
  | emptySegment => "empty segment"
  | relativeSegment => "relative segment"

/-- How the refusal of a path is worded. -/
def PathRefusal.message : PathRefusal → String
  | malformed fault => fault.message
  | badSegment => "invalid segment"
  | intoItself => "cannot copy or move a collection into itself"

/-- Why the store refuses an operation. -/
inductive StoreError where
  /-- Nothing is stored at the path. -/
  | notFound (path : Path)
  /-- Something is stored at the path already. -/
  | alreadyExists (path : Path)
  /-- The parent of the path is not a stored collection. -/
  | parentNotFound (path : Path)
  /-- The resource is not of the kind that the operation needs. -/
  | wrongKind (path : Path) (expected : ResourceKind)
  /-- The text is no path, or the operation does not allow the path. -/
  | invalidPath (text : String) (refusal : PathRefusal)
  /-- The transaction is unknown, committed or aborted. -/
  | transactionNotActive (transaction : TransactionId)
  /-- Something failed beneath the store. -/
  | backend (message : String)
  deriving DecidableEq, Repr

/-- How a store error is worded. -/
def StoreError.message : StoreError → String
  | notFound path => "resource not found: " ++ path.text
  | alreadyExists path => "resource already exists: " ++ path.text
  | parentNotFound path => "parent collection not found for " ++ path.text
  | wrongKind path expected =>
    "wrong resource kind at " ++ path.text ++ ": expected " ++ expected.name
  | invalidPath text refusal => "invalid path '" ++ text ++ "': " ++ refusal.message
  | transactionNotActive transaction =>
    "transaction not active: " ++ TransactionId.name transaction
  | backend message => "store backend error: " ++ message

namespace Path

/-- Reads a path; the error names the text as it was given. -/
def ofText (raw : String) : Except StoreError Path :=
  (parse raw.toList).mapError fun fault => .invalidPath raw (.malformed fault)

/-- Appends one segment; the error names the text that would have resulted. -/
def join (path : Path) (segment : String) : Except StoreError Path :=
  match path.child? segment.toList with
  | some child => .ok child
  | none => .error (.invalidPath (path.text ++ "/" ++ segment) .badSegment)

end Path

end DocTree
