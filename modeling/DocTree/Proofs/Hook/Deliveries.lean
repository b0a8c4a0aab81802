import Mathlib.Algebra.Group.Nat.Defs
import Mathlib.Data.List.Induction
import Mathlib.Logic.Function.Basic
import DocTree.Hook.FailureFeed

/-!
# Failures on their way

What those who want to know about failures get to know. Failures are numbered from one. The feed
keeps the last ones, up to its limit, and a consumer polls for those above its cursor, which is the
number of the last failure that it has received. A subscriber is sent every failure and receives
what has piled up.

Over every run of publications, polls, subscriptions and disconnections, a subscriber that is not
disconnected loses nothing, and a consumer loses nothing as long as it keeps up: before every
publication there is room for the new failure beside those that the consumer has not seen yet.

## Main definitions

* `FailureFeed.numbered`: failures with their numbers.
* `FailureFeed.Records`: what a feed holds after some failures were published.
* `FailureFeed.served`: the entries of a feed for a subscriber.
* `Deliveries`: a feed, and what was received from it; `Deliveries.step` and `Deliveries.run` say
  what the acts of a run do to it.
* `Deliveries.KeepsUp`: a consumer never has so much to see that the feed forgets some of it.

## Main results

* `FailureFeed.filter_drop_numbered`: the failures above a cursor are a tail of all failures.
* `Deliveries.records_run`: the feed keeps the last failures of a run.
* `Deliveries.follows_run`: a consumer that keeps up has received the failures up to its cursor.
* `Deliveries.attends_run`: a subscriber has received, or can receive, the failures since its
  subscription.
* `Deliveries.run_loses_nothing`: all of this.
-/

namespace DocTree

namespace FailureFeed

/-! ### Numbers -/

/-- Failures with their numbers, which count up from one. -/
def numbered (failures : List Failure) : List PublishedFailure :=
  failures.mapIdx fun index failure => ⟨UInt64.ofNat (index + 1), failure⟩

@[simp]
theorem length_numbered (failures : List Failure) :
    (numbered failures).length = failures.length :=
  List.length_mapIdx

theorem numbered_concat (failures : List Failure) (failure : Failure) :
    numbered (failures ++ [failure]) =
      numbered failures ++ [⟨UInt64.ofNat (failures.length + 1), failure⟩] :=
  List.mapIdx_concat

theorem map_number_numbered {failures : List Failure} (hcount : failures.length < 2 ^ 64) :
    (numbered failures).map (·.number.toNat) = List.range' 1 failures.length := by
  refine List.ext_getElem (by simp) fun index hindex _ => ?_
  rw [List.length_map, length_numbered] at hindex
  have hnumber : index + 1 < UInt64.size := Nat.lt_of_le_of_lt hindex hcount
  simp only [List.getElem_map, numbered, List.getElem_mapIdx, List.getElem_range']
  rw [UInt64.toNat_ofNat_of_lt' hnumber]
  omega

/-- The failures above a cursor are a tail of all failures. -/
theorem filter_drop_numbered {failures : List Failure} (hcount : failures.length < 2 ^ 64)
    (cursor : UInt64) (forgotten : Nat) :
    ((numbered failures).drop forgotten).filter (fun published => cursor < published.number) =
      (numbered failures).drop (max cursor.toNat forgotten) := by
  -- On the latest failure, both sides add it, or both have come to their end before it.
  induction failures using List.reverseRecOn with
  | nil => simp [numbered]
  | append_singleton failures failure ih =>
    rw [List.length_append, List.length_singleton] at hcount
    have hnumber : cursor < UInt64.ofNat (failures.length + 1) ↔
        cursor.toNat ≤ failures.length := by
      rw [UInt64.lt_iff_toNat_lt, UInt64.toNat_ofNat_of_lt' hcount, Nat.lt_succ_iff]
    have hlength := length_numbered failures
    rw [numbered_concat]
    by_cases hforgotten : forgotten ≤ failures.length
    · rw [List.drop_append_of_le_length (by omega), List.filter_append, ih (by omega),
        List.filter_cons, List.filter_nil]
      by_cases hseen : cursor.toNat ≤ failures.length
      · rw [List.drop_append_of_le_length (by omega), decide_eq_true (hnumber.2 hseen)]
        rfl
      · rw [List.drop_eq_nil_of_le (by omega), List.drop_eq_nil_of_le (by simp; omega),
          decide_eq_false (mt hnumber.1 hseen)]
        rfl
    · rw [List.drop_eq_nil_of_le (by simp; omega), List.drop_eq_nil_of_le (by simp; omega)]
      rfl

/-- The number of the last of the first failures says how many they are. -/
theorem toNat_number_getLast?_take {failures : List Failure}
    (hcount : failures.length < 2 ^ 64) {seen : Nat} (hseen : seen ≤ failures.length) :
    ((((numbered failures).take seen).getLast?.map PublishedFailure.number).getD 0).toNat =
      seen := by
  cases seen with
  | zero => simp
  | succ last =>
    have hnumber : last + 1 < UInt64.size := Nat.lt_of_le_of_lt hseen hcount
    have hlast : (numbered failures)[last]? =
        some ⟨UInt64.ofNat (last + 1), failures[last]⟩ := by
      rw [numbered, List.getElem?_mapIdx, List.getElem?_eq_getElem hseen, Option.map_some]
    rw [List.getLast?_take, if_neg (Nat.succ_ne_zero last), Nat.add_sub_cancel, hlast]
    exact UInt64.toNat_ofNat_of_lt' hnumber

/-- To forget now and then is to forget once. -/
theorem lastOf_lastOf_concat {α : Type} (limit : Nat) (items : List α) (item : α) :
    lastOf limit (lastOf limit items ++ [item]) = lastOf limit (items ++ [item]) := by
  unfold lastOf
  rw [← List.drop_append_of_le_length (Nat.sub_le ..), List.drop_drop, List.length_drop,
    List.length_append, List.length_singleton]
  congr 1
  omega

/-! ### What is kept -/

variable {feed : FailureFeed} {failures : List Failure} {limit : Nat}

/-- What a feed with a limit holds after some failures were published. -/
structure Records (feed : FailureFeed) (limit : Nat) (failures : List Failure) : Prop where
  limit_eq : feed.limit = limit
  kept_eq : feed.kept = lastOf limit (numbered failures)
  nextNumber_eq : feed.nextNumber = UInt64.ofNat (failures.length + 1)

theorem records_keeping (limit : Nat) : (keeping limit).Records limit [] :=
  ⟨rfl, List.drop_nil.symm, rfl⟩

theorem Records.publish (h : feed.Records limit failures) (failure : Failure) :
    (feed.publish failure).Records limit (failures ++ [failure]) where
  limit_eq := h.limit_eq
  kept_eq := by
    simp only [FailureFeed.publish, h.limit_eq, h.kept_eq, h.nextNumber_eq, numbered_concat]
    exact lastOf_lastOf_concat ..
  nextNumber_eq := by
    simp only [FailureFeed.publish, h.nextNumber_eq, List.length_append, List.length_singleton]
    exact (UInt64.ofNat_add (failures.length + 1) 1).symm

/-- The failures that are kept are the last ones. -/
theorem Records.kept_eq_drop (h : feed.Records limit failures) :
    feed.kept = (numbered failures).drop (failures.length - min failures.length limit) := by
  rw [h.kept_eq, lastOf, length_numbered]
  congr 1
  omega

theorem Records.map_number_kept (h : feed.Records limit failures)
    (hcount : failures.length < 2 ^ 64) :
    feed.kept.map (·.number.toNat) =
      List.range' (failures.length - min failures.length limit + 1)
        (min failures.length limit) := by
  rw [h.kept_eq_drop, List.map_drop, map_number_numbered hcount, List.drop_range']
  congr 1 <;> omega

/-- If anything is kept at all, the latest failure is. -/
theorem Records.toNat_latestNumber (h : feed.Records limit failures)
    (hcount : failures.length < 2 ^ 64) (hlimit : 0 < limit) :
    feed.latestNumber.toNat = failures.length := by
  have hlast : feed.kept.getLast? = ((numbered failures).take failures.length).getLast? := by
    rw [h.kept_eq_drop, List.getLast?_drop, List.take_of_length_le
      (Nat.le_of_eq (length_numbered failures)), length_numbered]
    split
    next hnone =>
      have hnil : failures = [] := List.eq_nil_of_length_eq_zero (by omega)
      rw [hnil]
      rfl
    next => rfl
  rw [latestNumber, hlast, toNat_number_getLast?_take hcount (Nat.le_refl _)]

/-- A poll returns the first failures that are above its cursor and were not forgotten. -/
theorem Records.newerThan_eq (h : feed.Records limit failures)
    (hcount : failures.length < 2 ^ 64) (cursor : UInt64) (bound : Nat) :
    feed.newerThan cursor bound =
      ((numbered failures).drop (max cursor.toNat (failures.length - limit))).take bound := by
  rw [newerThan, h.kept_eq, lastOf, length_numbered, filter_drop_numbered hcount]

/-! ### Subscribers -/

variable {id other : Nat}

/-- The entries of a feed for a subscriber. -/
def served (feed : FailureFeed) (id : Nat) : List Subscriber :=
  feed.subscribers.filter fun subscriber => subscriber.id = id

/-- What changes subscribers one by one, changes the entries for each of them. -/
theorem filter_map_change (subscribers : List Subscriber) {change : Subscriber → Subscriber}
    (hchange : ∀ subscriber, (change subscriber).id = subscriber.id) (id : Nat) :
    (subscribers.map change).filter (fun subscriber => subscriber.id = id) =
      (subscribers.filter fun subscriber => subscriber.id = id).map change := by
  rw [List.filter_map]
  congr 2
  funext subscriber
  rw [Function.comp_apply, hchange]

theorem filter_map_changeOnly (subscribers : List Subscriber) (other : Nat)
    {change : Subscriber → Subscriber}
    (hchange : ∀ subscriber, (change subscriber).id = subscriber.id) (id : Nat) :
    (subscribers.map fun subscriber =>
        if subscriber.id = other then change subscriber else subscriber).filter
          (fun subscriber => subscriber.id = id) =
      (subscribers.filter fun subscriber => subscriber.id = id).map fun subscriber =>
        if subscriber.id = other then change subscriber else subscriber := by
  refine filter_map_change subscribers (fun subscriber => ?_) id
  split
  · exact hchange subscriber
  · rfl

/-- What changes only the subscriber with some identity leaves the entries for all others alone. -/
theorem map_served_of_ne (feed : FailureFeed) (change : Subscriber → Subscriber)
    (h : other ≠ id) :
    ((feed.served id).map fun subscriber =>
        if subscriber.id = other then change subscriber else subscriber) = feed.served id := by
  refine (List.map_congr_left (g := fun subscriber => subscriber) fun subscriber hmem => ?_).trans
    (List.map_id' _)
  have hid : subscriber.id = id := by simpa using (List.mem_filter.1 hmem).2
  rw [if_neg (hid ▸ Ne.symm h)]

theorem served_publish (feed : FailureFeed) (failure : Failure) (id : Nat) :
    (feed.publish failure).served id = ((feed.served id).filter Subscriber.alive).map
      fun subscriber =>
        { subscriber with queue := subscriber.queue ++ [⟨feed.nextNumber, failure⟩] } := by
  simp only [served, publish]
  rw [filter_map_change]
  · simp only [List.filter_filter, Bool.and_comm]
  · exact fun _ => rfl

theorem served_subscribe (feed : FailureFeed) (id : Nat) :
    feed.subscribe.2.served id =
      feed.served id ++ if feed.nextSubscriber = id then [⟨id, true, []⟩] else [] := by
  rw [served, subscribe, List.filter_append, List.filter_cons, List.filter_nil]
  by_cases h : feed.nextSubscriber = id <;> simp [served, h]

theorem served_disconnect (feed : FailureFeed) (id other : Nat) :
    (feed.disconnect other).served id = (feed.served id).map fun subscriber =>
      if subscriber.id = other then { subscriber with alive := false, queue := [] }
      else subscriber := by
  refine filter_map_changeOnly _ other ?_ id
  exact fun _ => rfl

theorem served_receive_of_ne (feed : FailureFeed) (h : other ≠ id) :
    (feed.receive other).2.served id = feed.served id := by
  unfold receive
  split
  · rfl
  · refine (filter_map_changeOnly _ other ?_ id).trans (map_served_of_ne feed _ h)
    exact fun _ => rfl

/-- A subscriber receives for the first of its entries that is alive. -/
theorem find?_subscribers (feed : FailureFeed) (id : Nat) :
    (feed.subscribers.find? fun subscriber => subscriber.id = id && subscriber.alive) =
      (feed.served id).find? Subscriber.alive := by
  rw [served, List.find?_filter]
  simp only [Bool.decide_and, Bool.decide_eq_true]

theorem receive_of_served_eq_nil (h : feed.served id = []) : feed.receive id = (none, feed) := by
  rw [receive, find?_subscribers, h]
  rfl

/-- A subscriber with a single entry receives all that has piled up, and starts anew. -/
theorem receive_of_served {pending : List PublishedFailure}
    (h : feed.served id = [⟨id, true, pending⟩]) :
    (feed.receive id).1 = some pending ∧ (feed.receive id).2.served id = [⟨id, true, []⟩] := by
  rw [receive, find?_subscribers, h]
  refine ⟨rfl, (filter_map_changeOnly _ id ?_ id).trans ?_⟩
  · exact fun _ => rfl
  · rw [← served, h, List.map_singleton, if_pos rfl]

end FailureFeed

/-! ### Runs -/

/-- A feed, and what was received from it. -/
structure Deliveries where
  /-- The feed. -/
  feed : FailureFeed
  /-- What the subscribers have received. -/
  received : Nat → List PublishedFailure
  /-- What the consumers have got from their polls. -/
  polled : Nat → List PublishedFailure

namespace Deliveries

open FailureFeed

/-- What can happen to a feed. -/
inductive Act where
  /-- A failure is published. -/
  | publish (failure : Failure)
  /-- Somebody subscribes. -/
  | subscribe
  /-- A subscriber goes away. -/
  | disconnect (id : Nat)
  /-- A subscriber receives what has piled up for it. -/
  | receive (id : Nat)
  /-- A consumer polls for at most so many failures. -/
  | poll (consumer bound : Nat)
  deriving DecidableEq, Repr

/-- The failure that is published by an act. -/
def Act.published? : Act → Option Failure
  | .publish failure => some failure
  | _ => none

/-- The failures that are published by some acts. -/
def published (acts : List Act) : List Failure :=
  acts.filterMap Act.published?

/-- A feed that keeps a number of failures, and nothing received from it. -/
def keeping (limit : Nat) : Deliveries :=
  ⟨.keeping limit, fun _ => [], fun _ => []⟩

/-- The number of the last failure that a consumer has got, or zero. -/
def cursor (deliveries : Deliveries) (consumer : Nat) : UInt64 :=
  ((deliveries.polled consumer).getLast?.map PublishedFailure.number).getD 0

/-- What an act does. A consumer polls from its cursor. -/
def step (deliveries : Deliveries) : Act → Deliveries
  | .publish failure => { deliveries with feed := deliveries.feed.publish failure }
  | .subscribe => { deliveries with feed := deliveries.feed.subscribe.2 }
  | .disconnect id => { deliveries with feed := deliveries.feed.disconnect id }
  | .receive id =>
    { deliveries with
      feed := (deliveries.feed.receive id).2
      received := Function.update deliveries.received id
        (deliveries.received id ++ (deliveries.feed.receive id).1.getD []) }
  | .poll consumer bound =>
    { deliveries with
      polled := Function.update deliveries.polled consumer
        (deliveries.polled consumer ++
          deliveries.feed.newerThan (deliveries.cursor consumer) bound) }

/-- What some acts do, one after another. -/
def run (deliveries : Deliveries) (acts : List Act) : Deliveries :=
  acts.foldl step deliveries

/-- The failures above the cursor of a consumer. -/
def unseen (deliveries : Deliveries) (consumer : Nat) (failures : List Failure) :
    List PublishedFailure :=
  (numbered failures).filter fun published => deliveries.cursor consumer < published.number

/-- Before every publication of a run, a consumer has less to see than the feed keeps. -/
def KeepsUp (limit consumer : Nat) (acts : List Act) : Prop :=
  ∀ before failure after, acts = before ++ .publish failure :: after →
    (((keeping limit).run before).unseen consumer (published before)).length < limit

variable {deliveries : Deliveries} {limit consumer id : Nat} {failures : List Failure}
  {act : Act} {acts before after : List Act}

theorem run_concat (deliveries : Deliveries) (acts : List Act) (act : Act) :
    deliveries.run (acts ++ [act]) = (deliveries.run acts).step act := by
  rw [run, List.foldl_append]
  rfl

theorem published_concat (acts : List Act) (act : Act) :
    published (acts ++ [act]) = published acts ++ act.published?.toList := by
  rw [published, List.filterMap_append, List.filterMap_cons]
  cases act.published? <;> rfl

theorem eq_publish_of_published? {failure : Failure} (h : act.published? = some failure) :
    act = .publish failure := by
  cases act with
  | publish => exact congrArg Act.publish (Option.some.inj h)
  | subscribe | disconnect | receive | poll => cases h

theorem KeepsUp.of_concat (h : KeepsUp limit consumer (acts ++ [act])) :
    KeepsUp limit consumer acts := by
  intro before failure after hacts
  refine h before failure (after ++ [act]) ?_
  rw [hacts, List.append_assoc, List.cons_append]

/-! #### The feed -/

/-- Only a publication changes what is kept. -/
theorem kept_step (deliveries : Deliveries) (h : act.published? = none) :
    (deliveries.step act).feed.limit = deliveries.feed.limit ∧
      (deliveries.step act).feed.kept = deliveries.feed.kept ∧
      (deliveries.step act).feed.nextNumber = deliveries.feed.nextNumber := by
  cases act with
  | publish => cases h
  | receive id =>
    simp only [step, FailureFeed.receive]
    split <;> exact ⟨rfl, rfl, rfl⟩
  | subscribe | disconnect | poll => exact ⟨rfl, rfl, rfl⟩

theorem records_step (h : deliveries.feed.Records limit failures) (act : Act) :
    (deliveries.step act).feed.Records limit (failures ++ act.published?.toList) := by
  cases hact : act.published? with
  | some failure =>
    rw [eq_publish_of_published? hact]
    exact h.publish failure
  | none =>
    obtain ⟨hlimit, hkept, hnext⟩ := deliveries.kept_step hact
    rw [Option.toList_none, List.append_nil]
    exact ⟨hlimit.trans h.limit_eq, hkept.trans h.kept_eq, hnext.trans h.nextNumber_eq⟩

/-- The feed keeps the last failures of a run. -/
theorem records_run (limit : Nat) (acts : List Act) :
    ((keeping limit).run acts).feed.Records limit (published acts) := by
  induction acts using List.reverseRecOn with
  | nil => exact records_keeping limit
  | append_singleton acts act ih =>
    rw [run_concat, published_concat]
    exact records_step ih act

/-! #### Consumers -/

/-- A consumer has got the first failures, and the others are kept. -/
structure Follows (deliveries : Deliveries) (consumer limit : Nat) (failures : List Failure)
    (seen : Nat) : Prop where
  seen_le : seen ≤ failures.length
  polled_eq : deliveries.polled consumer = (numbered failures).take seen
  length_le : failures.length ≤ seen + limit

theorem Follows.toNat_cursor {seen : Nat} (h : deliveries.Follows consumer limit failures seen)
    (hcount : failures.length < 2 ^ 64) : (deliveries.cursor consumer).toNat = seen := by
  rw [cursor, h.polled_eq, toNat_number_getLast?_take hcount h.seen_le]

theorem Follows.unseen_eq {seen : Nat} (h : deliveries.Follows consumer limit failures seen)
    (hcount : failures.length < 2 ^ 64) :
    deliveries.unseen consumer failures = (numbered failures).drop seen := by
  have hfilter := filter_drop_numbered hcount (deliveries.cursor consumer) 0
  rwa [List.drop_zero, h.toNat_cursor hcount, Nat.max_zero] at hfilter

/-- What a consumer gets next follows on what it has got. -/
theorem Follows.newerThan_eq {seen : Nat} (h : deliveries.Follows consumer limit failures seen)
    (hrecords : deliveries.feed.Records limit failures) (hcount : failures.length < 2 ^ 64)
    (bound : Nat) :
    deliveries.feed.newerThan (deliveries.cursor consumer) bound =
      ((numbered failures).drop seen).take bound := by
  have hkept := h.length_le
  rw [hrecords.newerThan_eq hcount, h.toNat_cursor hcount,
    Nat.max_eq_left (by omega : failures.length - limit ≤ seen)]

theorem Follows.publish {seen : Nat} (h : deliveries.Follows consumer limit failures seen)
    (hroom : failures.length - seen < limit) (failure : Failure) :
    (deliveries.step (.publish failure)).Follows consumer limit (failures ++ [failure]) seen := by
  have hseen := h.seen_le
  refine ⟨?_, ?_, ?_⟩
  · rw [List.length_append]
    omega
  · rw [numbered_concat, List.take_append_of_le_length (by rwa [length_numbered])]
    exact h.polled_eq
  · rw [List.length_append, List.length_singleton]
    omega

theorem Follows.poll {seen : Nat} (h : deliveries.Follows consumer limit failures seen)
    (hrecords : deliveries.feed.Records limit failures) (hcount : failures.length < 2 ^ 64)
    (bound : Nat) :
    (deliveries.step (.poll consumer bound)).Follows consumer limit failures
      (min (seen + bound) failures.length) := by
  have hseen := h.seen_le
  have hkept := h.length_le
  refine ⟨Nat.min_le_right .., ?_, by omega⟩
  calc (deliveries.step (.poll consumer bound)).polled consumer
      = deliveries.polled consumer ++
          deliveries.feed.newerThan (deliveries.cursor consumer) bound := Function.update_self ..
    _ = (numbered failures).take seen ++ ((numbered failures).drop seen).take bound := by
        rw [h.polled_eq, h.newerThan_eq hrecords hcount]
    _ = (numbered failures).take (seen + bound) := List.take_add.symm
    _ = (numbered failures).take (min (seen + bound) failures.length) := by
        rw [← length_numbered failures, ← List.take_eq_take_min]

/-- What others do does not change what a consumer has got. -/
theorem polled_step (deliveries : Deliveries) (h : ∀ bound, act ≠ .poll consumer bound) :
    (deliveries.step act).polled consumer = deliveries.polled consumer := by
  cases act with
  | poll other bound =>
    refine Function.update_of_ne ?_ ..
    rintro rfl
    exact h bound rfl
  | publish | subscribe | disconnect | receive => rfl

/-- A consumer that keeps up has got the first failures, and the others are kept. -/
theorem follows_run (hcount : (published acts).length < 2 ^ 64)
    (hkeeps : KeepsUp limit consumer acts) :
    ∃ seen, ((keeping limit).run acts).Follows consumer limit (published acts) seen := by
  induction acts using List.reverseRecOn with
  | nil => exact ⟨0, Nat.le_refl _, rfl, Nat.zero_le _⟩
  | append_singleton acts act ih =>
    have hbefore : (published acts).length < 2 ^ 64 := by
      rw [published_concat, List.length_append] at hcount
      omega
    obtain ⟨seen, hfollows⟩ := ih hbefore hkeeps.of_concat
    rw [run_concat, published_concat]
    -- Two kinds of acts matter to the consumer: publications, which it leaves room for, and its own
    -- polls.
    cases hact : act.published? with
    | some failure =>
      cases eq_publish_of_published? hact
      have hroom := hkeeps acts failure [] rfl
      rw [hfollows.unseen_eq hbefore, List.length_drop, length_numbered] at hroom
      exact ⟨seen, hfollows.publish hroom failure⟩
    | none =>
      rw [Option.toList_none, List.append_nil]
      by_cases hpoll : ∃ bound, act = .poll consumer bound
      · obtain ⟨bound, rfl⟩ := hpoll
        exact ⟨_, hfollows.poll (records_run limit acts) hbefore bound⟩
      · rw [not_exists] at hpoll
        exact ⟨seen, hfollows.seen_le, (polled_step _ hpoll).trans hfollows.polled_eq,
          hfollows.length_le⟩

/-! #### Subscribers -/

/-- The numbers by which subscribers are told apart are given out only once. -/
def Fresh (deliveries : Deliveries) : Prop :=
  ∀ id, deliveries.feed.nextSubscriber ≤ id →
    deliveries.feed.served id = [] ∧ deliveries.received id = []

/-- A subscriber that is alive was sent some failures: it has received the first of them and can
receive the others. -/
structure Attends (deliveries : Deliveries) (id : Nat) (sent : List PublishedFailure) : Prop where
  id_lt : id < deliveries.feed.nextSubscriber
  exists_pending : ∃ pending, deliveries.feed.served id = [⟨id, true, pending⟩] ∧
    deliveries.received id ++ pending = sent

theorem nextSubscriber_step_le (deliveries : Deliveries) (act : Act) :
    deliveries.feed.nextSubscriber ≤ (deliveries.step act).feed.nextSubscriber := by
  cases act with
  | subscribe => exact Nat.le_succ _
  | receive id =>
    simp only [step, FailureFeed.receive]
    split <;> exact Nat.le_refl _
  | publish | disconnect | poll => exact Nat.le_refl _

theorem fresh_step (h : deliveries.Fresh) (act : Act) : (deliveries.step act).Fresh := by
  intro id hid
  -- A number that was not given out by this act was not given out before it.
  have hnext := Nat.le_trans (deliveries.nextSubscriber_step_le act) hid
  obtain ⟨hserved, hreceived⟩ := h id hnext
  cases act with
  | publish failure =>
    refine ⟨?_, hreceived⟩
    rw [step, served_publish, hserved]
    rfl
  | subscribe =>
    refine ⟨?_, hreceived⟩
    rw [step, served_subscribe, hserved, if_neg (Nat.ne_of_lt hid)]
    rfl
  | disconnect other =>
    refine ⟨?_, hreceived⟩
    rw [step, served_disconnect, hserved]
    rfl
  | receive other =>
    by_cases heq : other = id
    · subst heq
      simp only [step, receive_of_served_eq_nil hserved, Function.update_self]
      exact ⟨hserved, by rw [hreceived]; rfl⟩
    · simp only [step, Function.update_of_ne (Ne.symm heq)]
      exact ⟨(served_receive_of_ne _ heq).trans hserved, hreceived⟩
  | poll => exact ⟨hserved, hreceived⟩

/-- A subscriber is sent what is published, whatever happens to the others. -/
theorem attends_step {sent : List PublishedFailure} (h : deliveries.Attends id sent)
    (hact : act ≠ .disconnect id) :
    (deliveries.step act).Attends id (sent ++ act.published?.toList.map fun failure =>
      ⟨deliveries.feed.nextNumber, failure⟩) := by
  obtain ⟨hid, pending, hserved, hsent⟩ := h
  refine ⟨Nat.lt_of_lt_of_le hid (deliveries.nextSubscriber_step_le act), ?_⟩
  cases act with
  | publish failure =>
    refine ⟨pending ++ [⟨deliveries.feed.nextNumber, failure⟩], ?_, ?_⟩
    · rw [step, served_publish, hserved]
      rfl
    · rw [← hsent, List.append_assoc]
      rfl
  | subscribe =>
    refine ⟨pending, ?_, hsent.trans (List.append_nil sent).symm⟩
    rw [step, served_subscribe, hserved, if_neg (Nat.ne_of_gt hid), List.append_nil]
  | disconnect other =>
    refine ⟨pending, ?_, hsent.trans (List.append_nil sent).symm⟩
    have hother : other ≠ id := fun heq => hact (congrArg Act.disconnect heq)
    rw [step, served_disconnect, map_served_of_ne _ _ hother, hserved]
  | receive other =>
    by_cases heq : other = id
    · -- What was pending becomes what was received.
      subst heq
      obtain ⟨hreceive, hempty⟩ := receive_of_served hserved
      refine ⟨[], hempty, ?_⟩
      simp only [step, Function.update_self, hreceive, Option.getD_some, hsent]
      rfl
    · refine ⟨pending, (served_receive_of_ne _ heq).trans hserved, ?_⟩
      simp only [step, Function.update_of_ne (Ne.symm heq), hsent]
      exact (List.append_nil sent).symm
  | poll => exact ⟨pending, hserved, hsent.trans (List.append_nil sent).symm⟩

theorem fresh_run (limit : Nat) (acts : List Act) : ((keeping limit).run acts).Fresh := by
  induction acts using List.reverseRecOn with
  | nil => exact fun _ _ => ⟨rfl, rfl⟩
  | append_singleton acts act ih =>
    rw [run_concat]
    exact fresh_step ih act

/-- Who subscribes gets the next number, and nothing yet. -/
theorem attends_subscribe (h : deliveries.Fresh) :
    (deliveries.step .subscribe).Attends deliveries.feed.subscribe.1 [] := by
  obtain ⟨hserved, hreceived⟩ := h deliveries.feed.subscribe.1 (Nat.le_refl _)
  refine ⟨Nat.lt_succ_self _, [], ?_, ?_⟩
  · rw [step, served_subscribe, hserved]
    exact if_pos rfl
  · exact (List.append_nil _).trans hreceived

/-- A subscriber that is not disconnected has received, or can receive, the failures since its
subscription. -/
theorem attends_run (limit : Nat) (before after : List Act)
    (hafter : .disconnect ((keeping limit).run before).feed.subscribe.1 ∉ after) :
    ((keeping limit).run (before ++ .subscribe :: after)).Attends
      ((keeping limit).run before).feed.subscribe.1
      ((numbered (published (before ++ .subscribe :: after))).drop (published before).length) := by
  induction after using List.reverseRecOn with
  | nil =>
    have hpublished : published (before ++ [.subscribe]) = published before :=
      (published_concat ..).trans (List.append_nil _)
    rw [run_concat, hpublished, List.drop_eq_nil_of_le (Nat.le_of_eq (length_numbered _))]
    exact attends_subscribe (fresh_run limit before)
  | append_singleton after act ih =>
    rw [List.mem_append, not_or, List.mem_singleton] at hafter
    have hattends := attends_step (ih hafter.1) (Ne.symm hafter.2)
    have hcons : before ++ .subscribe :: (after ++ [act]) =
        before ++ .subscribe :: after ++ [act] := by
      rw [List.append_assoc, List.cons_append]
    have hlength : (published before).length ≤
        (published (before ++ .subscribe :: after)).length := by
      rw [published, published, List.filterMap_append, List.length_append]
      exact Nat.le_add_right ..
    rw [(records_run limit _).nextNumber_eq] at hattends
    rw [hcons, run_concat, published_concat]
    cases hact : act.published? with
    | some failure =>
      rw [hact] at hattends
      rw [Option.toList_some, numbered_concat,
        List.drop_append_of_le_length (by rwa [length_numbered])]
      exact hattends
    | none =>
      rw [hact, Option.toList_none, List.map_nil, List.append_nil] at hattends
      rwa [Option.toList_none, List.append_nil]

/-! #### All of it -/

/-- After every run, the feed keeps the last failures, with their numbers, and polls are answered
from them; a consumer that keeps up has got the failures up to its cursor, and gets another one
whenever there is any; and a subscriber that was not disconnected has received, or can receive, the
failures since its subscription, all in order. -/
theorem run_loses_nothing (limit : Nat) (acts : List Act)
    (hcount : (published acts).length < 2 ^ 64 - 1) :
    (((keeping limit).run acts).feed.kept = (numbered (published acts)).drop
        ((published acts).length - min (published acts).length limit) ∧
      ((keeping limit).run acts).feed.kept.map (·.number.toNat) =
        List.range' ((published acts).length - min (published acts).length limit + 1)
          (min (published acts).length limit)) ∧
    (0 < limit →
      ((keeping limit).run acts).feed.latestNumber.toNat = (published acts).length) ∧
    (∀ cursor bound, ((keeping limit).run acts).feed.newerThan cursor bound =
      ((numbered (published acts)).drop
        (max cursor.toNat ((published acts).length - limit))).take bound) ∧
    (∀ consumer, KeepsUp limit consumer acts →
      (((keeping limit).run acts).cursor consumer).toNat ≤ (published acts).length ∧
      ((keeping limit).run acts).polled consumer =
        (numbered (published acts)).take (((keeping limit).run acts).cursor consumer).toNat ∧
      (((keeping limit).run acts).unseen consumer (published acts) ≠ [] → ∀ bound, 0 < bound →
        ((keeping limit).run acts).feed.newerThan (((keeping limit).run acts).cursor consumer)
          bound ≠ [])) ∧
    ∀ before after, acts = before ++ .subscribe :: after →
      .disconnect ((keeping limit).run before).feed.subscribe.1 ∉ after →
      ∃ pending,
        (((keeping limit).run acts).feed.receive
          ((keeping limit).run before).feed.subscribe.1).1 = some pending ∧
        ((keeping limit).run acts).received ((keeping limit).run before).feed.subscribe.1 ++
          pending = (numbered (published acts)).drop (published before).length := by
  have hwrap : (published acts).length < 2 ^ 64 := by omega
  have hrecords := records_run limit acts
  refine ⟨⟨hrecords.kept_eq_drop, hrecords.map_number_kept hwrap⟩,
    hrecords.toNat_latestNumber hwrap, hrecords.newerThan_eq hwrap, ?_, ?_⟩
  · intro consumer hkeeps
    obtain ⟨seen, hfollows⟩ := follows_run hwrap hkeeps
    rw [hfollows.toNat_cursor hwrap, hfollows.unseen_eq hwrap]
    refine ⟨hfollows.seen_le, hfollows.polled_eq, fun hunseen bound hbound => ?_⟩
    rw [hfollows.newerThan_eq hrecords hwrap, Ne, List.take_eq_nil_iff, not_or]
    exact ⟨Nat.ne_of_gt hbound, hunseen⟩
  · rintro before after rfl hafter
    obtain ⟨-, pending, hserved, hsent⟩ := attends_run limit before after hafter
    exact ⟨pending, (receive_of_served hserved).1, hsent⟩

/-- A failure for a run. -/
def someFailure : Failure :=
  ⟨.deleteDocument, .root, .root, "late", 0⟩

/-- Two failures are published, of which one is kept, while a consumer polls in between and one of
two subscribers goes away. -/
def briefRun : List Act :=
  [.subscribe, .subscribe, .publish someFailure, .poll 0 1, .disconnect 1, .publish someFailure]

/-- In the brief run, the consumer keeps up and nobody loses anything. -/
theorem run_loses_nothing_brief :
    (published briefRun).length < 2 ^ 64 - 1 ∧ KeepsUp 1 0 briefRun ∧
      ((keeping 1).run briefRun).feed.kept = [⟨2, someFailure⟩] ∧
      ((keeping 1).run briefRun).polled 0 = [⟨1, someFailure⟩] ∧
      ∃ pending, (((keeping 1).run briefRun).feed.receive 0).1 = some pending ∧
        ((keeping 1).run briefRun).received 0 ++ pending =
          [⟨1, someFailure⟩, ⟨2, someFailure⟩] := by
  have hcount : (published briefRun).length < 2 ^ 64 - 1 := by decide
  have hkeeps : KeepsUp 1 0 briefRun := by
    intro before failure after hacts
    simp [briefRun, List.cons_eq_append_iff] at hacts
    obtain ⟨_, rfl, ⟨rfl, -⟩ | ⟨rfl, -⟩⟩ := hacts <;> decide
  obtain ⟨⟨hkept, -⟩, -, -, hpolled, hreceived⟩ := run_loses_nothing 1 briefRun hcount
  exact ⟨hcount, hkeeps, hkept, (hpolled 0 hkeeps).2.1, hreceived [] _ rfl (by decide)⟩

end Deliveries

end DocTree
