import DocTree.Event
import DocTree.Store.Error

/-!
# The feed of failures

Failures of hooks that ran after a change, when nothing can be prevented any more. They are
numbered, handed to subscribers, and kept for polling up to a limit.

## Main definitions

* `Failure` and `PublishedFailure`: a failure, and one with its number.
* `FailureFeed`: the failures kept, the subscribers, and the next number.
* `FailureFeed.publish`, `FailureFeed.newerThan`, `FailureFeed.subscribe`, `FailureFeed.receive`:
  publishing and receiving.
-/

namespace DocTree

/-- What is told about a failure. -/
structure Failure where
  /-- The event whose hooks ran. -/
  event : Event
  /-- The resource that the hook was told about first. -/
  path : Path
  /-- The collection whose configuration declares the hook. -/
  declaredAt : Path
  /-- The failure in words. -/
  message : String
  /-- The transaction of the mutation. -/
  transaction : TransactionId
  deriving DecidableEq, Repr

/-- A failure with its number. -/
structure PublishedFailure where
  /-- The number. Numbers count up from one in 64 bits. -/
  number : UInt64
  /-- What is told about it. -/
  failure : Failure
  deriving DecidableEq, Repr

/-- A subscriber to failures. -/
structure Subscriber where
  /-- What tells it apart from other subscribers. -/
  id : Nat
  /-- Whether anyone still receives. -/
  alive : Bool
  /-- The failures that were sent and not yet received. -/
  queue : List PublishedFailure
  deriving DecidableEq, Repr

/-- Failures on their way to those who want to know. -/
structure FailureFeed where
  /-- The latest failures, the oldest first. -/
  kept : List PublishedFailure
  /-- How many failures are kept. -/
  limit : Nat
  /-- The number that the next failure gets. -/
  nextNumber : UInt64
  /-- The subscribers that were not found dead yet. -/
  subscribers : List Subscriber
  /-- What the next subscriber is told apart by. -/
  nextSubscriber : Nat
  deriving DecidableEq, Repr

namespace FailureFeed

/-- A feed that keeps a number of failures. -/
def keeping (limit : Nat) : FailureFeed where
  kept := []
  limit
  nextNumber := 1
  subscribers := []
  nextSubscriber := 0

/-- The last `limit` elements of a list. -/
def lastOf {α : Type} (limit : Nat) (items : List α) : List α :=
  items.drop (items.length - limit)

/-- Publishes a failure: it gets the next number, is kept, and is sent to every live subscriber.
Dead subscribers are forgotten. -/
def publish (feed : FailureFeed) (failure : Failure) : FailureFeed :=
  let published : PublishedFailure := ⟨feed.nextNumber, failure⟩
  { feed with
    kept := lastOf feed.limit (feed.kept ++ [published])
    nextNumber := feed.nextNumber + 1
    -- Only now is it noticed that a subscriber is dead.
    subscribers := (feed.subscribers.filter Subscriber.alive).map fun subscriber =>
      { subscriber with queue := subscriber.queue ++ [published] } }

/-- The first `limit` failures kept whose numbers are greater than `cursor`. -/
def newerThan (feed : FailureFeed) (cursor : UInt64) (limit : Nat) : List PublishedFailure :=
  (feed.kept.filter fun published => cursor < published.number).take limit

/-- The number of the latest failure kept, or zero. -/
def latestNumber (feed : FailureFeed) : UInt64 :=
  (feed.kept.getLast?.map PublishedFailure.number).getD 0

/-- The number of failures kept. -/
def size (feed : FailureFeed) : Nat :=
  feed.kept.length

/-- Adds a subscriber for the failures to come. -/
def subscribe (feed : FailureFeed) : Nat × FailureFeed :=
  (feed.nextSubscriber,
    { feed with
      subscribers := feed.subscribers ++ [⟨feed.nextSubscriber, true, []⟩]
      nextSubscriber := feed.nextSubscriber + 1 })

/-- Nobody receives for a subscriber any more. It is forgotten with the next failure. -/
def disconnect (feed : FailureFeed) (id : Nat) : FailureFeed :=
  { feed with
    subscribers := feed.subscribers.map fun subscriber =>
      if subscriber.id = id then { subscriber with alive := false, queue := [] } else subscriber }

/-- Receives what was sent to a subscriber, if anyone still receives for it. -/
def receive (feed : FailureFeed) (id : Nat) : Option (List PublishedFailure) × FailureFeed :=
  match feed.subscribers.find? fun subscriber => subscriber.id = id && subscriber.alive with
  | none => (none, feed)
  | some found =>
    (some found.queue,
      { feed with
        subscribers := feed.subscribers.map fun subscriber =>
          if subscriber.id = id then { subscriber with queue := [] } else subscriber })

/-- The number of subscribers that were not found dead yet. -/
def audience (feed : FailureFeed) : Nat :=
  feed.subscribers.length

end FailureFeed

end DocTree
