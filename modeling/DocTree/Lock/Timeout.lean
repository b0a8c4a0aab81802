import DocTree.Text.Pieces
import DocTree.Text.Decimal
import DocTree.Time

/-!
# Lock timeouts

How long a lock is asked for or granted, and its written form: `Infinite` or `Second-` followed by
a number of seconds.

## Main definitions

* `Timeout`: a lifetime without end, or a number of seconds.
* `Timeout.read?`, `Timeout.readHeader?` and `Timeout.text`: reading and writing.
* `Timeout.clamp`: the lifetime that is granted when an upper bound is configured.
-/

namespace DocTree

/-- A requested or granted lock lifetime. -/
inductive Timeout where
  /-- The lock never expires. -/
  | infinite
  /-- The lock expires after this many seconds. -/
  | seconds (count : UInt64)
  deriving DecidableEq, Repr

/-- A text that is no timeout, without the blank characters around it. -/
structure InvalidTimeout where
  /-- The text. -/
  text : String
  deriving DecidableEq, Repr

/-- How a refused timeout is worded. -/
def InvalidTimeout.message (e : InvalidTimeout) : String :=
  "invalid lock timeout '" ++ e.text ++ "'"

namespace Timeout

/-- The word for a lifetime without end. -/
def infiniteWord : List Char :=
  ['i', 'n', 'f', 'i', 'n', 'i', 't', 'e']

/-- What stands before the number of seconds. -/
def secondsWord : List Char :=
  ['s', 'e', 'c', 'o', 'n', 'd', '-']

/-- Reads a number of seconds: decimal digits, with one plus sign allowed before them, that denote
a number of 64 bits. -/
def readSeconds? (text : List Char) : Option UInt64 :=
  -- One sign is tolerated, as in most readers of numbers.
  let digits := match text with
    | '+' :: rest => rest
    | _ => text
  match Text.readDigits? digits with
  | some n => if n < UInt64.size then some (UInt64.ofNat n) else none
  | none => none

/-- Reads a timeout. Blank characters around it and the case of ASCII letters do not matter. -/
def read? (text : List Char) : Option Timeout :=
  let word := Text.trim text
  if Text.lower word = infiniteWord then some .infinite
  else if Text.lower (word.take secondsWord.length) = secondsWord then
    (readSeconds? (word.drop secondsWord.length)).map .seconds
  else none

/-- Reads a timeout; the error names the text without the blank characters around it. -/
def ofText (text : String) : Except InvalidTimeout Timeout :=
  match read? text.toList with
  | some timeout => .ok timeout
  | none => .error ⟨String.ofList (Text.trim text.toList)⟩

/-- Reads a comma-separated list of preferences: the first entry that is a timeout. -/
def readHeader? (text : List Char) : Option Timeout :=
  (text.splitOn ',').findSome? read?

/-- The written form. -/
def text : Timeout → String
  | infinite => "Infinite"
  | seconds count => "Second-" ++ String.ofList (Text.writeDigits count.toNat)

/-- The lifetime, if it ends. -/
def duration? : Timeout → Option Duration
  | infinite => none
  | seconds count => some (.ofSeconds count.toNat)

/-- The timeout of an amount of time, rounded down to whole seconds. -/
def ofDuration (d : Duration) : Timeout :=
  .seconds d.seconds64

/-- A timeout cut down to an upper bound, if there is one. -/
def capped (timeout : Timeout) (bound : Option Duration) : Timeout :=
  match timeout, bound with
  | .infinite, some most => .ofDuration most
  | .seconds count, some most => if count > most.seconds64 then .ofDuration most else timeout
  | _, none => timeout

/-- A timeout cut down to an upper bound; one that ends is never shorter than a second. -/
def clamp (timeout : Timeout) (bound : Option Duration) : Timeout :=
  match timeout.capped bound with
  | .seconds count => if count = 0 then .seconds 1 else .seconds count
  | .infinite => .infinite

end Timeout

end DocTree
