import DocTree.Proofs.Lock.Exclusion

/-!
# Expired tokens leave no trace

A lock table drops an expired token when it happens to come across it: a lock that is granted
overwrites the token, a search for its identity removes it, looking up its document removes it, and
listing tokens sweeps the whole table. A register has live tokens only. It drops whatever has
expired before each call, and its operations know nothing of expiry: to them, a document is locked
if the register has a token for it.

As long as the clock is not set back and no identity is given twice, nobody can tell the two apart.
Whoever asks for a lock, for its renewal or end, or for the tokens on documents gets the same answer
from both, and the same tokens are live in both after each call. How many tokens were dropped with a
document is not compared, since a table counts the expired ones that it still has.

## Main definitions

* `Register`: live tokens by document, with `Register.respond`.
* `LockTable.TimedCall`: a call together with what the clock shows.
* `LockTable.transcript`: what is learned from calls made one after another, and which tokens are
  live after each.
* `LockTable.SameLive`: the same tokens are live in two tables.

## Main results

* `LockTable.SameLive.later`: tables in which the same tokens are live agree at all later instants.
* `LockTable.Sound.withId?_evict`: among live tokens, an identity is found if the token that has it
  is live.
* `LockTable.Sound.sameLive_respond`: one call goes the same way in both.
* `LockTable.transcript_eq_register`: so do all calls.
-/

namespace DocTree

/-! ### Registers -/

/-- The tokens of the documents that are locked, one for each. -/
abbrev Register := PathMap LockToken

namespace Register

/-- Locks a document, or renews the lock of a principal that has it. -/
def lock (policy : LockPolicy) (register : Register) (now : Instant) (fresh : String) (path : Path)
    (owner : Principal) (requested : Option Timeout) : Except LockError LockToken × Register :=
  if policy.permissions.mayWrite owner path then
    match register.get? path with
    | none =>
      let token := .grant fresh path owner (policy.grantedTimeout requested) now
      (.ok token, register.insert path token)
    | some held =>
      if held.owner = owner then
        let token := held.renew (policy.grantedTimeout requested) now
        (.ok token, register.insert path token)
      else (.error (.alreadyLocked path held.owner), register)
  else (.error (.mayNotWrite owner path), register)

/-- The token with an identity, if it belongs to the caller. -/
def owned (register : Register) (id : String) (caller : Principal) : Except LockError LockToken :=
  match register.values.find? fun token => token.id = id with
  | none => .error (.notLocked id)
  | some token =>
    if token.owner = caller then .ok token
    else .error (.notOwner caller token.path token.owner)

/-- Renews a token of the caller. -/
def refresh (policy : LockPolicy) (register : Register) (now : Instant) (id : String)
    (caller : Principal) (requested : Option Timeout) : Except LockError LockToken × Register :=
  match register.owned id caller with
  | .error e => (.error e, register)
  | .ok token =>
    let renewed := token.renew (policy.grantedTimeout requested) now
    (.ok renewed, register.insert token.path renewed)

/-- Gives a token of the caller up. -/
def unlock (register : Register) (id : String) (caller : Principal) :
    Except LockError Unit × Register :=
  match register.owned id caller with
  | .error e => (.error e, register)
  | .ok token => (.ok (), register.erase token.path)

/-- The tokens of the documents at and below a path. -/
def under (register : Register) (above : Path) : List LockToken :=
  (register.entries.filter fun entry => entry.1.startsWith above).map Prod.snd

/-- The register without the tokens of the documents at and below a path. -/
def releaseUnder (register : Register) (above : Path) : Register :=
  register.filter fun path _ => !path.startsWith above

end Register

namespace LockTable

/-- A call, and what the clock shows when it is made. -/
structure TimedCall where
  /-- What the clock shows. -/
  clock : Instant
  /-- The call. -/
  call : Call
  /-- A call that goes by the clock goes by what it shows. -/
  reads : call.reading?.getD clock = clock

/-- What is learned from the answer to a call. Tokens that are dropped with their documents are not
asked about. -/
def Call.learned? : Call → Answer → Option Answer
  | release _, _ | releaseUnder _, _ => none
  | _, answer => some answer

/-- What is learned from calls made one after another, and the tokens that are live after each of
them, for a way to keep tokens. -/
def transcript (respond : PathMap LockToken → TimedCall → Answer × PathMap LockToken)
    (tokens : PathMap LockToken) : List TimedCall → List (Option Answer × PathMap LockToken)
  | [] => []
  | timed :: rest =>
    let (answer, after) := respond tokens timed
    (timed.call.learned? answer, evict after timed.clock) :: transcript respond after rest

end LockTable

/-- How a register answers a call. What has expired is dropped first, whatever the call is. -/
def Register.respond (policy : LockPolicy) (register : Register) (timed : LockTable.TimedCall) :
    LockTable.Answer × Register :=
  -- No operation below looks at the deadline of a token.
  let live : Register := register.filter fun _ token => !token.isExpired timed.clock
  match timed.call with
  | .lock _ fresh path owner requested =>
    (live.lock policy timed.clock fresh path owner requested).map .granted (·)
  | .refresh _ id caller requested =>
    (live.refresh policy timed.clock id caller requested).map .granted (·)
  | .unlock _ id caller => (live.unlock id caller).map .ended (·)
  | .current _ path => (.found (live.get? path), live)
  | .under _ path => (.listed (live.under path), live)
  | .release path => (.found (live.get? path), live.erase path)
  | .releaseUnder path =>
    (.counted (live.size - (live.releaseUnder path).size), live.releaseUnder path)

namespace LockTable

variable {policy : LockPolicy} {table one other : LockTable} {now : Instant} {path : Path}
  {token : LockToken}

/-! ### The same live tokens -/

/-- The same tokens are live in two tables. -/
def SameLive (now : Instant) (one other : LockTable) : Prop :=
  ∀ path, one.live? now path = other.live? now path

theorem Evicts.sameLive {after : LockTable} (h : Evicts now table after) :
    SameLive now after table :=
  h.live?_eq

theorem live?_insert (table : LockTable) (now : Instant) (locked path : Path) (token : LockToken) :
    live? (table.insert locked token) now path =
      if locked = path then (some token).filter fun token => !token.isExpired now
      else table.live? now path := by
  rw [live?, PathMap.get?_insert]
  split
  · rfl
  · rfl

theorem live?_erase (table : LockTable) (now : Instant) (gone path : Path) :
    live? (table.erase gone) now path = if gone = path then none else table.live? now path := by
  rw [live?, PathMap.get?_erase]
  split
  · rfl
  · rfl

theorem live?_releaseUnder (table : LockTable) (now : Instant) (above path : Path) :
    (table.releaseUnder above).2.live? now path =
      if path.startsWith above then none else table.live? now path := by
  rw [live?, get?_releaseUnder]
  split
  · rfl
  · rfl

/-- What has expired stays expired. -/
theorem isExpired_of_le {later : Instant} (hle : now.nanos ≤ later.nanos)
    (h : token.isExpired now = true) : token.isExpired later = true := by
  unfold LockToken.isExpired at h ⊢
  cases hdeadline : token.deadline with
  | none =>
    rw [hdeadline] at h
    cases h
  | some deadline =>
    simp only [hdeadline, Option.any_some, decide_eq_true_eq] at h ⊢
    omega

/-- What is live later is what is live now and has not expired by then. -/
theorem live?_of_le {later : Instant} (hle : now.nanos ≤ later.nanos) (table : LockTable)
    (path : Path) :
    table.live? later path =
      (table.live? now path).filter fun token => !token.isExpired later := by
  rw [live?, live?, Option.filter_filter]
  refine congrArg (Option.filter · _) (funext fun token => ?_)
  -- The token has not expired now if it has not expired later.
  cases hlater : token.isExpired later with
  | true => simp
  | false =>
    have hnow : token.isExpired now = false :=
      Bool.eq_false_iff.2 fun hnow => Bool.eq_false_iff.1 hlater (isExpired_of_le hle hnow)
    simp [hnow]

namespace SameLive

theorem symm (h : SameLive now one other) : SameLive now other one :=
  fun path => (h path).symm

theorem trans {third : LockTable} (h : SameLive now one other) (hnext : SameLive now other third) :
    SameLive now one third :=
  fun path => (h path).trans (hnext path)

/-- Which tokens are live later depends on those that are live now. -/
theorem later {later : Instant} (h : SameLive now one other) (hle : now.nanos ≤ later.nanos) :
    SameLive later one other := by
  intro path
  rw [live?_of_le hle, live?_of_le hle, h path]

/-- Tables in which the same tokens are live are the same when expired tokens are dropped. -/
theorem evict_eq (h : SameLive now one other) : one.evict now = other.evict now := by
  refine PathMap.ext_get? fun path => ?_
  rw [get?_evict, get?_evict, h path]

theorem insert (h : SameLive now one other) (path : Path) (token : LockToken) :
    SameLive now (one.insert path token) (other.insert path token) := by
  intro key
  rw [live?_insert, live?_insert, h key]

theorem erase (h : SameLive now one other) (path : Path) :
    SameLive now (one.erase path) (other.erase path) := by
  intro key
  rw [live?_erase, live?_erase, h key]

theorem releaseUnder (h : SameLive now one other) (above : Path) :
    SameLive now (one.releaseUnder above).2 (other.releaseUnder above).2 := by
  intro key
  rw [live?_releaseUnder, live?_releaseUnder, h key]

end SameLive

/-- Dropping what has expired leaves the same tokens live. -/
theorem sameLive_evict (table : LockTable) (now : Instant) :
    SameLive now table (table.evict now) :=
  (table.evicts_evict now).sameLive.symm

/-! ### One call -/

/-- A request to lock a document goes the same way for the live tokens alone. -/
theorem sameLive_lock (policy : LockPolicy) (table : LockTable) (now : Instant) (fresh : String)
    (path : Path) (owner : Principal) (requested : Option Timeout) :
    (table.lock policy now fresh path owner requested).1 =
        (Register.lock policy (table.evict now) now fresh path owner requested).1 ∧
      SameLive now (table.lock policy now fresh path owner requested).2
        (Register.lock policy (table.evict now) now fresh path owner requested).2 := by
  have hsame := table.sameLive_evict now
  have hlocks := locks_lock policy table now fresh path owner requested
  unfold Register.lock
  rw [get?_evict]
  generalize table.lock policy now fresh path owner requested = response at hlocks ⊢
  cases hlocks with
  | refused hmay =>
    rw [if_neg (by simp [hmay])]
    exact ⟨rfl, hsame⟩
  | granted hmay hfree =>
    rw [if_pos hmay, hfree]
    exact ⟨rfl, hsame.insert _ _⟩
  | renewed hmay hheld howner =>
    rw [if_pos hmay, hheld]
    exact ⟨by simp [howner], by simpa [howner] using hsame.insert path _⟩
  | locked hmay hheld howner =>
    rw [if_pos hmay, hheld]
    exact ⟨by simp [howner], by simpa [howner] using hsame⟩

/-- An identity is found among the live tokens if the token that has it is live. -/
theorem Sound.withId?_evict {issued : List String} (h : table.Sound issued) (now : Instant)
    (id : String) :
    (table.evict now).withId? id = (table.withId? id).filter fun token => !token.isExpired now := by
  have hevicts := table.evicts_evict now
  have hevicted : (table.evict now).Sound issued :=
    ⟨hevicts.filed h.filed,
      fun first second one other hone hother =>
        h.distinct first second one other (hevicts.get?_of_get? hone) (hevicts.get?_of_get? hother),
      fun path token hget => h.issued path token (hevicts.get?_of_get? hget)⟩
  cases hfound : (table.evict now).withId? id with
  | some token =>
    -- A live token with the identity is the only token with it.
    obtain ⟨hget, hid⟩ := of_withId? hfound hevicted.filed
    rw [get?_evict] at hget
    obtain ⟨hget, hlive⟩ := live?_eq_some_iff.1 hget
    rw [← hid, h.withId? hget]
    simp [Option.filter, hlive]
  | none =>
    cases hall : table.withId? id with
    | none => rfl
    | some token =>
      obtain ⟨hget, hid⟩ := of_withId? hall h.filed
      cases hexpired : token.isExpired now with
      | true => simp [Option.filter, hexpired]
      | false =>
        have hkept : (table.evict now).get? token.path = some token :=
          (get?_evict ..).trans (live?_eq_some_iff.2 ⟨hget, hexpired⟩)
        rw [← hid, hevicted.withId? hkept] at hfound
        cases hfound

/-- The search for a token of the caller goes the same way among the live tokens alone. -/
theorem Sound.sameLive_owned {issued : List String} (h : table.Sound issued) (now : Instant)
    (id : String) (caller : Principal) :
    (table.owned now id caller).1 = Register.owned (table.evict now) id caller ∧
      SameLive now (table.owned now id caller).2 (table.evict now) := by
  have hsame := table.sameLive_evict now
  have hfind : ((table.evict now).values.find? fun token => token.id = id) =
      (table.withId? id).filter fun token => !token.isExpired now := h.withId?_evict now id
  have howns := table.owns_owned now id caller
  unfold Register.owned
  rw [hfind]
  generalize table.owned now id caller = response at howns ⊢
  cases howns with
  | unknown hid =>
    rw [hid]
    exact ⟨rfl, hsame⟩
  | @lapsed token hid hexpired =>
    -- The token is dropped from the table only, and is not live in either.
    have hget := (of_withId? hid h.filed).1
    have hgone : table.live? now token.path = none := by
      simp [live?, hget, hexpired]
    rw [hid]
    exact ⟨by simp [Option.filter, hexpired], (evicts_erase hgone).sameLive.trans hsame⟩
  | foreign hid hlive howner =>
    rw [hid]
    exact ⟨by simp [Option.filter, hlive, howner], hsame⟩
  | own hid hlive howner =>
    rw [hid]
    exact ⟨by simp [Option.filter, hlive, howner], hsame⟩

/-- Tokens are renewed and given up in the same way among the live tokens alone. -/
theorem Sound.sameLive_refresh {issued : List String} (h : table.Sound issued)
    (policy : LockPolicy) (now : Instant) (id : String) (caller : Principal)
    (requested : Option Timeout) :
    (table.refresh policy now id caller requested).1 =
        (Register.refresh policy (table.evict now) now id caller requested).1 ∧
      SameLive now (table.refresh policy now id caller requested).2
        (Register.refresh policy (table.evict now) now id caller requested).2 := by
  obtain ⟨hanswer, hsame⟩ := h.sameLive_owned now id caller
  unfold LockTable.refresh Register.refresh
  rw [← hanswer]
  generalize table.owned now id caller = response at hsame ⊢
  obtain ⟨_ | token, after⟩ := response
  · exact ⟨rfl, hsame⟩
  · exact ⟨rfl, hsame.insert _ _⟩

theorem Sound.sameLive_unlock {issued : List String} (h : table.Sound issued) (now : Instant)
    (id : String) (caller : Principal) :
    (table.unlock now id caller).1 = (Register.unlock (table.evict now) id caller).1 ∧
      SameLive now (table.unlock now id caller).2
        (Register.unlock (table.evict now) id caller).2 := by
  obtain ⟨hanswer, hsame⟩ := h.sameLive_owned now id caller
  unfold LockTable.unlock Register.unlock
  rw [← hanswer]
  generalize table.owned now id caller = response at hsame ⊢
  obtain ⟨_ | token, after⟩ := response
  · exact ⟨rfl, hsame⟩
  · exact ⟨rfl, hsame.erase _⟩

/-- The tokens at and below a path are those of the documents that the live ones are kept under. -/
theorem fst_under_of_filed (hfiled : table.Filed) (now : Instant) (above : Path) :
    (table.under now above).1 = Register.under (table.evict now) above :=
  filter_values_of_filed ((table.evicts_evict now).filed hfiled) fun path => path.startsWith above

/-- A table and a register in which the same tokens are live answer a call in the same way, and the
same tokens are live in them afterwards. -/
theorem Sound.sameLive_respond {issued : List String} (h : table.Sound issued)
    (policy : LockPolicy) {register : Register} {timed : TimedCall}
    (hsame : SameLive timed.clock table register) :
    timed.call.learned? (table.respond policy timed.call).1 =
        timed.call.learned? (register.respond policy timed).1 ∧
      SameLive timed.clock (table.respond policy timed.call).2
        (register.respond policy timed).2 := by
  -- What the register goes by is what dropping expired tokens leaves of the table.
  have hlive : (register.filter fun _ token => !token.isExpired timed.clock) =
      table.evict timed.clock := hsame.evict_eq.symm
  have hevict := table.sameLive_evict timed.clock
  unfold Register.respond
  rw [hlive]
  obtain ⟨clock, call, hreads⟩ := timed
  cases call with
  | lock now fresh path owner requested =>
    obtain rfl : now = clock := hreads
    obtain ⟨hanswer, hafter⟩ := table.sameLive_lock policy now fresh path owner requested
    exact ⟨congrArg (some ∘ Answer.granted) hanswer, hafter⟩
  | refresh now id caller requested =>
    obtain rfl : now = clock := hreads
    obtain ⟨hanswer, hafter⟩ := h.sameLive_refresh policy now id caller requested
    exact ⟨congrArg (some ∘ Answer.granted) hanswer, hafter⟩
  | unlock now id caller =>
    obtain rfl : now = clock := hreads
    obtain ⟨hanswer, hafter⟩ := h.sameLive_unlock now id caller
    exact ⟨congrArg (some ∘ Answer.ended) hanswer, hafter⟩
  | current now path =>
    obtain rfl : now = clock := hreads
    have hanswer := (table.fst_current now path).trans (get?_evict ..).symm
    exact ⟨congrArg (some ∘ Answer.found) hanswer,
      (table.evicts_current now path).sameLive.trans hevict⟩
  | under now above =>
    obtain rfl : now = clock := hreads
    exact ⟨congrArg (some ∘ Answer.listed) (fst_under_of_filed h.filed now above), fun _ => rfl⟩
  | release path => exact ⟨rfl, hevict.erase path⟩
  | releaseUnder above => exact ⟨rfl, hevict.releaseUnder above⟩

/-! ### All calls -/

/-- Calls go the same way from a table and a register in which the same tokens are live. -/
theorem Sound.transcript_eq {old : List String} (h : table.Sound old) {register : Register}
    {calls : List TimedCall} (hsame : ∀ timed ∈ calls, SameLive timed.clock table register)
    (hfresh : (old ++ LockTable.issued (calls.map TimedCall.call)).Nodup)
    (hclock : calls.Pairwise fun earlier later => earlier.clock.nanos ≤ later.clock.nanos) :
    transcript (fun table timed => LockTable.respond policy table timed.call) table calls =
      transcript (Register.respond policy) register calls := by
  -- Induction on the calls: the same tokens are live whenever one of the remaining calls is made.
  induction calls generalizing table old register with
  | nil => rfl
  | cons timed rest ih =>
    rw [List.forall_mem_cons] at hsame
    rw [List.pairwise_cons] at hclock
    rw [List.map_cons] at hfresh
    obtain ⟨hanswer, hafter⟩ := h.sameLive_respond policy hsame.1
    have hnext : (LockTable.respond policy table timed.call).2.Sound
        (old ++ timed.call.fresh?.toList) :=
      h.respond fun fresh hcall => not_mem_of_nodup_issued hfresh hcall
    rw [issued_cons, ← List.append_assoc] at hfresh
    have hrest :=
      ih hnext (fun later hlater => hafter.later (hclock.1 later hlater)) hfresh hclock.2
    simp only [transcript]
    rw [hanswer, hafter.evict_eq, hrest]

/-- From an empty table, calls go the same way as for a register: whether expired tokens are dropped
before each call, or when they are come across, makes no difference to what is learned from any of
the calls, nor to the tokens that are live after it. -/
theorem transcript_eq_register (policy : LockPolicy) {calls : List TimedCall}
    (hfresh : (issued (calls.map TimedCall.call)).Nodup)
    (hclock : calls.Pairwise fun earlier later => earlier.clock.nanos ≤ later.clock.nanos) :
    transcript (fun table timed => LockTable.respond policy table timed.call) .empty calls =
      transcript (Register.respond policy) .empty calls :=
  (sound_empty []).transcript_eq (fun _ _ _ => rfl) hfresh hclock

/-- Alice locks a document for a minute. Nobody comes across her token once it has expired, until
she wants to give it up; then bob gets the lock. -/
def minutesLapsing : List TimedCall :=
  [⟨atSecond 10, minutesTaken, rfl⟩,
    ⟨atSecond 60, .lock (atSecond 60) "second" minutes ⟨"bob"⟩ none, rfl⟩,
    ⟨atSecond 75, .releaseUnder ((Path.root.child? "archive".toList).getD .root), rfl⟩,
    ⟨atSecond 75, .unlock (atSecond 75) "first" ⟨"alice"⟩, rfl⟩,
    ⟨atSecond 80, .lock (atSecond 80) "third" minutes ⟨"bob"⟩ none, rfl⟩,
    ⟨atSecond 90, .under (atSecond 90) .root, rfl⟩]

/-- The token that bob gets. -/
def minutesRetaken : LockToken :=
  .grant "third" minutes ⟨"bob"⟩ (.seconds 30) (atSecond 80)

/-- Alice's token is still in the table after it has expired, and makes no difference. -/
theorem transcript_eq_register_minutesLapsing :
    (issued (minutesLapsing.map TimedCall.call)).Nodup ∧
    (minutesLapsing.Pairwise fun earlier later => earlier.clock.nanos ≤ later.clock.nanos) ∧
    (run exceptCarol .empty ((minutesLapsing.take 3).map TimedCall.call)).get? minutes =
      some minutesToken ∧
    minutesToken.isExpired (atSecond 75) = true ∧
    (transcript (fun table timed => LockTable.respond exceptCarol table timed.call) .empty
      minutesLapsing).map Prod.fst =
        [some (.granted (.ok minutesToken)),
          some (.granted (.error (.alreadyLocked minutes ⟨"alice"⟩))), none,
          some (.ended (.error (.notLocked "first"))), some (.granted (.ok minutesRetaken)),
          some (.listed [minutesRetaken])] ∧
    transcript (fun table timed => LockTable.respond exceptCarol table timed.call) .empty
        minutesLapsing =
      transcript (Register.respond exceptCarol) .empty minutesLapsing := by
  have hfresh : (issued (minutesLapsing.map TimedCall.call)).Nodup := by decide
  have hclock : minutesLapsing.Pairwise fun earlier later =>
      earlier.clock.nanos ≤ later.clock.nanos := by
    decide +kernel
  exact ⟨hfresh, hclock, by decide +kernel, by decide +kernel, rfl,
    transcript_eq_register exceptCarol hfresh hclock⟩

end LockTable

end DocTree
