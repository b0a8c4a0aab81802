import DocTree.Json.Writer
import DocTree.Lock.Timeout
import DocTree.Principal

/-!
# Lock tokens

The proof that a principal holds the exclusive lock on a document, for as long as it lives.

## Main definitions

* `LockToken`: a token, with `LockToken.renew`, `LockToken.isExpired` and `LockToken.remaining?`.
* `LockToken.toJson?` and `LockToken.ofJson?`: its form in lock discovery.
* `LockToken.write?` and `LockToken.read?`: its text.
* `TokenSupply`: where the identities of new tokens come from.
-/

namespace DocTree

/-- A lock on one document. -/
structure LockToken where
  /-- What identifies the token. -/
  id : String
  /-- Who holds the lock. -/
  owner : Principal
  /-- The locked document. -/
  path : Path
  /-- The lifetime that was granted last. -/
  timeout : Timeout
  /-- When the lock expires, if it does. -/
  deadline : Option Instant
  deriving DecidableEq, Repr

namespace LockToken

/-- The instant at which a lifetime that starts now ends, if it ends. -/
def deadlineAfter (timeout : Timeout) (now : Instant) : Option Instant :=
  timeout.duration?.map now.addSaturating

/-- Starts the lifetime of a token anew. -/
def renew (token : LockToken) (timeout : Timeout) (now : Instant) : LockToken :=
  { token with timeout, deadline := deadlineAfter timeout now }

/-- A new token. -/
def grant (id : String) (path : Path) (owner : Principal) (timeout : Timeout) (now : Instant) :
    LockToken :=
  { id, owner, path, timeout, deadline := deadlineAfter timeout now }

/-- Whether the lock has expired: its deadline is reached. -/
def isExpired (token : LockToken) (now : Instant) : Bool :=
  token.deadline.any fun deadline => deadline.nanos ≤ now.nanos

/-- What is left of the lifetime, if it ends. -/
def remaining? (token : LockToken) (now : Instant) : Option Duration :=
  token.deadline.map fun deadline => deadline.since now

/-! ### The form in lock discovery -/

/-- The only kind of lock. -/
def scope : String := "exclusive"

/-- The names of a token's fields. -/
def fieldNames : List String :=
  ["tokenId", "owner", "documentPath", "scope", "timeout", "deadline"]

/-- The names of an instant's fields. -/
def instantFieldNames : List String :=
  ["secs_since_epoch", "nanos_since_epoch"]

/-- The greatest number of nanoseconds that an instant may be written with. -/
def maxWrittenNanos : Nat := 4294967295

/-- An instant as seconds and nanoseconds since the epoch; one before the epoch has no such form. -/
def instantToJson? (t : Instant) : Option Json :=
  t.sinceEpoch?.map fun amount =>
    .object [(some "secs_since_epoch", .ofNat amount.seconds),
      (some "nanos_since_epoch", .ofNat amount.subsecNanos)]

/-- Reads an instant. More nanoseconds than a second has count towards the seconds; an instant
after the latest one is refused. -/
def instantOfJson? (json : Json) : Option Instant := do
  match ← json.fields? instantFieldNames false with
  | [some seconds, some nanos] =>
    let seconds ← seconds.word64?
    let nanos ← nanos.word64?
    if nanos ≤ maxWrittenNanos then Instant.epoch.add? (.ofParts seconds nanos) else none
  | _ => none

/-- The form of a deadline, if there is one; the outer `none` is for one that has no form. -/
def deadlineToJson? : Option Instant → Option (Option Json)
  | none => some none
  | some t => (instantToJson? t).map some

/-- A token as a record. A deadline is written only if there is one. -/
def toJson? (token : LockToken) : Option Json := do
  let deadline ← deadlineToJson? token.deadline
  return .object <|
    [(some "tokenId", .ofText token.id), (some "owner", .ofText token.owner.name),
      (some "documentPath", .ofText token.path.text), (some "scope", .ofText scope),
      (some "timeout", .ofText token.timeout.text)]
    ++ (deadline.map fun value => (some "deadline", value)).toList

/-- Reads the deadline of a token; it may be missing or `null`. -/
def deadlineOfJson? : Option Json → Option (Option Instant)
  | none => some none
  | some .null => some none
  | some json => (instantOfJson? json).map some

/-- Reads a token. Members that a token does not have are skipped. -/
def ofJson? (json : Json) : Option LockToken := do
  match ← json.fields? fieldNames true with
  | [some id, some owner, some path, some scopeName, some timeout, deadline] =>
    let id ← id.text?
    let owner ← owner.text?
    let path ← (Path.parse (← path.text?).toList).toOption
    guard ((← scopeName.choice?) = scope)
    let timeout ← Timeout.read? (← timeout.text?).toList
    let deadline ← deadlineOfJson? deadline
    return { id, owner := ⟨owner⟩, path, timeout, deadline }
  | _ => none

/-- The text of a token, unless its deadline is before the epoch. -/
def write? (token : LockToken) : Option String :=
  token.toJson?.map fun json => String.ofList (json.write .compact)

/-- The text of a token, or an empty one. -/
def write (token : LockToken) : String :=
  token.write?.getD ""

/-- Reads the text of a token. -/
def read? (text : String) : Option LockToken := do
  ofJson? (← Json.read? text.toList)

end LockToken

/-- A supply of identities for new tokens. The label keeps the identities of different supplies
apart, the number those of one supply. -/
structure TokenSupply where
  /-- What the identities of this supply have in common. -/
  label : String
  /-- The number of identities drawn so far. -/
  drawn : Nat
  deriving DecidableEq, Repr, Inhabited

namespace TokenSupply

/-- The scheme of token identities. -/
def scheme : String := "opaquelocktoken:"

/-- The identity with a number. -/
def identity (supply : TokenSupply) (number : Nat) : String :=
  scheme ++ supply.label ++ toString number

/-- Draws the next identity. -/
def draw (supply : TokenSupply) : String × TokenSupply :=
  (supply.identity supply.drawn, { supply with drawn := supply.drawn + 1 })

end TokenSupply

end DocTree
