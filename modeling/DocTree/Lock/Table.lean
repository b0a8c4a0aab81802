import DocTree.Lock.Token
import DocTree.Path.Map

/-!
# The lock table

Advisory locks on documents: at most one live token for each. Expired tokens stay in the table
until an operation comes across them.

## Main definitions

* `LockTable`: the tokens by document.
* `LockPolicy`: who may lock, and for how long.
* `LockTable.lock`, `LockTable.refresh`, `LockTable.unlock`: the operations of a principal.
* `LockTable.current`, `LockTable.under`, `LockTable.release`, `LockTable.releaseUnder`: looking
  tokens up and dropping them with their documents.
-/

namespace DocTree

/-- Why an operation on a lock is refused. -/
inductive LockError where
  /-- Another principal holds the lock. -/
  | alreadyLocked (path : Path) (owner : Principal)
  /-- No live token has the given identity. -/
  | notLocked (token : String)
  /-- The principal may not write at the path. -/
  | mayNotWrite (caller : Principal) (path : Path)
  /-- The token belongs to another principal. -/
  | notOwner (caller : Principal) (path : Path) (owner : Principal)
  deriving DecidableEq, Repr

namespace LockError

/-- How a lock error is worded. -/
def message : LockError → String
  | alreadyLocked path owner =>
    "document " ++ path.text ++ " is already locked by " ++ owner.name
  | notLocked token => "no live lock for token " ++ token
  | mayNotWrite caller path =>
    "permission denied for " ++ caller.name ++ ": no write permission on " ++ path.text
  | notOwner caller path owner =>
    "permission denied for " ++ caller.name ++ ": lock on " ++ path.text ++ " is owned by "
      ++ owner.name

/-- Whether the same operation may succeed later. -/
def isRetriable : LockError → Bool
  | alreadyLocked _ _ => true
  | _ => false

end LockError

/-- Who may lock, and for how long. -/
structure LockPolicy where
  /-- Who may write where; a lock needs the permission to write. -/
  permissions : Permissions
  /-- The lifetime of a lock for which none is requested. -/
  defaultTimeout : Duration
  /-- The upper bound of a lifetime, if there is one. -/
  maxTimeout : Option Duration

/-- The lifetime that is granted for a request, or for the absence of one. -/
def LockPolicy.grantedTimeout (policy : LockPolicy) (requested : Option Timeout) : Timeout :=
  (requested.getD (.ofDuration policy.defaultTimeout)).clamp policy.maxTimeout

/-- The tokens by document, expired ones included. -/
abbrev LockTable := PathMap LockToken

namespace LockTable

/-- Locks a document. A principal that holds the lock has it renewed under the same identity; else
the new token gets the identity `fresh`. -/
def lock (policy : LockPolicy) (table : LockTable) (now : Instant) (fresh : String) (path : Path)
    (owner : Principal) (requested : Option Timeout) : Except LockError LockToken × LockTable :=
  if !policy.permissions.mayWrite owner path then (.error (.mayNotWrite owner path), table)
  else
    let timeout := policy.grantedTimeout requested
    let granted (token : LockToken) := (Except.ok token, table.insert path token)
    -- An expired token is no obstacle, whoever it belongs to.
    match table.get? path with
    | some held =>
      if held.isExpired now then granted (.grant fresh path owner timeout now)
      else if held.owner = owner then granted (held.renew timeout now)
      else (.error (.alreadyLocked path held.owner), table)
    | none => granted (.grant fresh path owner timeout now)

/-- The token with an identity. -/
def withId? (table : LockTable) (id : String) : Option LockToken :=
  table.values.find? fun token => token.id = id

/-- Finds the live token with an identity on behalf of its owner. A token that turns out to be
expired is dropped. -/
def owned (table : LockTable) (now : Instant) (id : String) (caller : Principal) :
    Except LockError LockToken × LockTable :=
  match table.withId? id with
  | none => (.error (.notLocked id), table)
  | some token =>
    -- To its owner, too, an expired token is as good as none.
    if token.isExpired now then (.error (.notLocked id), table.erase token.path)
    else if token.owner = caller then (.ok token, table)
    else (.error (.notOwner caller token.path token.owner), table)

/-- Starts the lifetime of a live token anew, on behalf of its owner. -/
def refresh (policy : LockPolicy) (table : LockTable) (now : Instant) (id : String)
    (caller : Principal) (requested : Option Timeout) : Except LockError LockToken × LockTable :=
  match table.owned now id caller with
  | (.error e, table) => (.error e, table)
  | (.ok token, table) =>
    let renewed := token.renew (policy.grantedTimeout requested) now
    (.ok renewed, table.insert token.path renewed)

/-- Gives a live token up, on behalf of its owner. -/
def unlock (table : LockTable) (now : Instant) (id : String) (caller : Principal) :
    Except LockError Unit × LockTable :=
  match table.owned now id caller with
  | (.error e, table) => (.error e, table)
  | (.ok token, table) => (.ok (), table.erase token.path)

/-- The live token on a document. An expired one is dropped. -/
def current (table : LockTable) (now : Instant) (path : Path) : Option LockToken × LockTable :=
  match table.get? path with
  | some token => if token.isExpired now then (none, table.erase path) else (some token, table)
  | none => (none, table)

/-- The table without its expired tokens. -/
def evict (table : LockTable) (now : Instant) : LockTable :=
  table.filter fun _ token => !token.isExpired now

/-- The live tokens at and below a path, in the order of their documents. All expired tokens are
dropped. -/
def under (table : LockTable) (now : Instant) (path : Path) : List LockToken × LockTable :=
  -- The expired tokens of other documents go as well.
  let live := table.evict now
  (live.values.filter fun token => token.path.startsWith path, live)

/-- Drops the token on a document that was deleted or moved away. -/
def release (table : LockTable) (path : Path) : Option LockToken × LockTable :=
  (table.get? path, table.erase path)

/-- Drops the tokens at and below a path; the first component counts them. -/
def releaseUnder (table : LockTable) (path : Path) : Nat × LockTable :=
  let kept := table.filter fun locked _ => !locked.startsWith path
  (table.size - kept.size, kept)

end LockTable

end DocTree
