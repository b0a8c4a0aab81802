import Mathlib.Data.ENat.Lattice
import Mathlib.Data.List.Induction
import DocTree.Proofs.Lock.Exclusion
import DocTree.Proofs.Time.Saturation

/-!
# Granted lifetimes

Whoever asks for a lock, or for its renewal, may say for how long. The lifetime that is granted is
the requested one, or else the default one, cut down to the configured bound, but at least a second.
It starts when it is granted and ends at the latest instant at the latest.

After every run of a lock table, this is what each of its tokens says about the call that handed it
out last.

## Main definitions

* `Duration.length`, `Timeout.length`: seconds, of which there are infinitely many in a lifetime
  without end.
* `LockTable.HasLifetime`: the lifetime of a token fits the request that it was granted for.
* `LockTable.LastGranted`: the call of a run that handed a token out last.

## Main results

* `LockPolicy.length_grantedTimeout`: how long a lock is granted for.
* `LockToken.nanos_deadlineAfter`: when a lifetime ends.
* `LockTable.lastGranted_run`: every token in the table was handed out by a call of the run.
* `LockTable.hasLifetime_run`: tokens have the lifetimes that they were granted last.
-/

namespace DocTree

/-! ### Seconds -/

/-- The whole seconds of an amount of time. They are counted in 64 bits. -/
def Duration.length (d : Duration) : ℕ∞ :=
  (min d.seconds (UInt64.size - 1) : ℕ)

theorem Duration.toNat_seconds64 (d : Duration) :
    d.seconds64.toNat = min d.seconds (UInt64.size - 1) := by
  have hlt : min d.seconds (UInt64.size - 1) < UInt64.size := by
    have hsize : 0 < UInt64.size := by decide
    omega
  exact UInt64.toNat_ofNat_of_lt hlt

namespace Timeout

/-- The number of seconds of a lifetime. -/
def length : Timeout → ℕ∞
  | infinite => ⊤
  | seconds count => (count.toNat : ℕ)

@[simp]
theorem length_infinite : infinite.length = ⊤ := rfl

@[simp]
theorem length_ofDuration (d : Duration) : (ofDuration d).length = d.length := by
  rw [ofDuration, length, Duration.toNat_seconds64, Duration.length]

/-- A lifetime without end is the only one that is infinitely long. -/
theorem length_eq_top_iff {timeout : Timeout} : timeout.length = ⊤ ↔ timeout = infinite := by
  cases timeout with
  | infinite => simp
  | seconds count => simp [length]

/-- A lifetime is cut down to its bound. -/
theorem length_capped (timeout : Timeout) (bound : Option Duration) :
    (timeout.capped bound).length = min timeout.length (bound.elim ⊤ Duration.length) := by
  cases bound with
  | none => cases timeout <;> simp [capped]
  | some most =>
    cases timeout with
    | infinite => simp [capped]
    | seconds count =>
      have hlength : most.length = (most.seconds64.toNat : ℕ) := by
        rw [Duration.toNat_seconds64, Duration.length]
      -- The bound counts if it is shorter.
      simp only [capped, Option.elim_some]
      split
      next hgt =>
        have hle : most.length ≤ length (seconds count) := by
          rw [hlength, length, Nat.cast_le]
          exact Nat.le_of_lt (UInt64.lt_iff_toNat_lt.1 hgt)
        rw [length_ofDuration, min_eq_right hle]
      next hle =>
        have hle : length (seconds count) ≤ most.length := by
          rw [hlength, length, Nat.cast_le]
          exact UInt64.le_iff_toNat_le.1 (UInt64.not_lt.1 hle)
        rw [min_eq_left hle]

/-- A lifetime is cut down to its bound, but it is at least a second. -/
theorem length_clamp (timeout : Timeout) (bound : Option Duration) :
    (timeout.clamp bound).length = max 1 (min timeout.length (bound.elim ⊤ Duration.length)) := by
  rw [← length_capped, clamp]
  split
  next count hcount =>
    rw [hcount]
    split
    next hzero => simp [length, hzero]
    next hpositive =>
      have hone : 1 ≤ count.toNat := by
        rw [Nat.one_le_iff_ne_zero]
        exact fun hzero => hpositive (UInt64.toNat_inj.1 hzero)
      rw [length, max_eq_right (by exact_mod_cast hone)]
  next hinfinite => simp [hinfinite]

end Timeout

namespace LockPolicy

/-- The number of seconds that a lock is asked for: the requested one, or else the default one. -/
def asked (policy : LockPolicy) : Option Timeout → ℕ∞
  | some timeout => timeout.length
  | none => policy.defaultTimeout.length

/-- The greatest number of seconds that a lock is granted for. -/
def longest (policy : LockPolicy) : ℕ∞ :=
  policy.maxTimeout.elim ⊤ Duration.length

/-- A lock is granted for as long as it is asked for and allowed, but for at least a second. -/
theorem length_grantedTimeout (policy : LockPolicy) (requested : Option Timeout) :
    (policy.grantedTimeout requested).length =
      max 1 (min (policy.asked requested) policy.longest) := by
  rw [grantedTimeout, Timeout.length_clamp, longest]
  cases requested with
  | none => rw [Option.getD_none, Timeout.length_ofDuration, asked]
  | some timeout => rw [Option.getD_some, asked]

end LockPolicy

/-! ### Deadlines -/

namespace LockToken

variable {token : LockToken} {timeout : Timeout} {now : Instant}

theorem deadlineAfter_eq_none_iff : deadlineAfter timeout now = none ↔ timeout = .infinite := by
  cases timeout <;> simp [deadlineAfter, Timeout.duration?]

/-- A lifetime of some seconds ends that much later, but at the latest instant at the latest. -/
theorem nanos_deadlineAfter {deadline : Instant} (h : deadlineAfter timeout now = some deadline) :
    ∃ count, timeout = .seconds count ∧
      deadline.nanos = min latestNanos (now.nanos + count.toNat * Duration.nanosPerSecond) := by
  cases timeout with
  | infinite => simp [deadlineAfter, Timeout.duration?] at h
  | seconds count =>
    rw [deadlineAfter, Timeout.duration?, Option.map_some, Option.some_inj] at h
    refine ⟨count, rfl, ?_⟩
    rw [← h, Instant.nanos_addSaturating, Duration.ofSeconds, Duration.ofParts, Nat.add_zero]

/-- A token that ends a second or more after a reading of the clock has not ended at this reading,
unless there is nothing later. -/
theorem isExpired_eq_false_of_length (hdeadline : token.deadline = deadlineAfter token.timeout now)
    (hlength : 1 ≤ token.timeout.length) (hnow : now.nanos < latestNanos) :
    token.isExpired now = false := by
  cases hsome : token.deadline with
  | none => simp [isExpired, hsome]
  | some deadline =>
    rw [hsome] at hdeadline
    obtain ⟨count, hcount, hnanos⟩ := nanos_deadlineAfter hdeadline.symm
    have hone : 1 ≤ count.toNat := by
      rw [hcount, Timeout.length] at hlength
      exact_mod_cast hlength
    have hlonger : 0 < count.toNat * Duration.nanosPerSecond := Nat.mul_pos hone (by decide)
    have hlater : now.nanos < deadline.nanos := by
      rw [hnanos, lt_min_iff]
      exact ⟨hnow, Nat.lt_add_of_pos_right hlonger⟩
    simp only [isExpired, hsome, Option.any_some, decide_eq_false_iff_not]
    omega

end LockToken

namespace LockTable

variable {policy : LockPolicy} {table : LockTable} {path : Path} {token : LockToken}

/-! ### What is granted -/

/-- The reading of the clock that a call goes by when it asks for a lock or for its renewal, and the
lifetime that is requested. -/
def Call.request? : Call → Option (Instant × Option Timeout)
  | lock now _ _ _ requested | refresh now _ _ requested => some (now, requested)
  | _ => none

/-- The lifetime of a token is the one that is granted at a reading of the clock for a request. -/
structure HasLifetime (policy : LockPolicy) (token : LockToken) (now : Instant)
    (requested : Option Timeout) : Prop where
  /-- The token is granted for as long as it is asked for and allowed, and at least a second. -/
  length : token.timeout.length = max 1 (min (policy.asked requested) policy.longest)
  /-- It ends that much later, but at the latest instant at the latest. -/
  deadline : ∀ deadline, token.deadline = some deadline → ∃ count, token.timeout = .seconds count ∧
    deadline.nanos = min latestNanos (now.nanos + count.toNat * Duration.nanosPerSecond)
  /-- It never ends only if this is requested and there is no bound. -/
  endless : token.deadline = none ↔ requested = some .infinite ∧ policy.maxTimeout = none
  /-- Nor does it say that it never ends otherwise. -/
  infinite : token.timeout = .infinite ↔ token.deadline = none
  /-- It has not ended when it begins, unless that is at the latest instant. -/
  live : now.nanos < latestNanos → token.isExpired now = false

/-- A lifetime without end is granted only if it is requested and there is no bound. -/
theorem grantedTimeout_eq_infinite_iff {requested : Option Timeout} :
    policy.grantedTimeout requested = .infinite ↔
      requested = some .infinite ∧ policy.maxTimeout = none := by
  -- The default is a finite amount of time, so what is asked for is infinite only on request.
  have hasked : policy.asked requested = ⊤ ↔ requested = some .infinite := by
    cases requested with
    | none => simp [LockPolicy.asked, Duration.length]
    | some timeout => simp [LockPolicy.asked, Timeout.length_eq_top_iff]
  have hlongest : policy.longest = ⊤ ↔ policy.maxTimeout = none := by
    rw [LockPolicy.longest]
    cases policy.maxTimeout <;> simp [Duration.length]
  rw [← Timeout.length_eq_top_iff, LockPolicy.length_grantedTimeout, max_eq_top, min_eq_top,
    hasked, hlongest]
  simp

/-- What a lifetime is when it starts at a reading of the clock. -/
theorem hasLifetime_of_eq {now : Instant} {requested : Option Timeout}
    (htimeout : token.timeout = policy.grantedTimeout requested)
    (hdeadline : token.deadline = LockToken.deadlineAfter token.timeout now) :
    HasLifetime policy token now requested := by
  have hlength : token.timeout.length = max 1 (min (policy.asked requested) policy.longest) := by
    rw [htimeout, policy.length_grantedTimeout]
  have hinfinite : token.timeout = .infinite ↔ token.deadline = none := by
    rw [hdeadline, LockToken.deadlineAfter_eq_none_iff]
  refine ⟨hlength, ?_, ?_, hinfinite, ?_⟩
  · intro deadline hsome
    exact LockToken.nanos_deadlineAfter (hdeadline.symm.trans hsome)
  · rw [← hinfinite, htimeout, grantedTimeout_eq_infinite_iff]
  · -- The lifetime is a second at least.
    exact LockToken.isExpired_eq_false_of_length hdeadline (hlength ▸ le_max_left _ _)

/-- What a call hands out has the lifetime that the call asks for. -/
theorem hasLifetime_of_granted {call : Call}
    (h : (table.respond policy call).1 = .granted (.ok token)) :
    ∃ now requested, call.request? = some (now, requested) ∧
      HasLifetime policy token now requested := by
  cases call with
  | lock now fresh path owner requested =>
    have hresult : (table.lock policy now fresh path owner requested).1 = .ok token :=
      Answer.granted.inj h
    have hlocks := locks_lock policy table now fresh path owner requested
    generalize table.lock policy now fresh path owner requested = response at hresult hlocks
    refine ⟨now, requested, rfl, ?_⟩
    -- Whether the token is new or renewed, its lifetime starts at the reading of the clock.
    cases hlocks with
    | refused => cases hresult
    | granted =>
      cases hresult
      exact hasLifetime_of_eq rfl rfl
    | renewed =>
      cases hresult
      exact hasLifetime_of_eq rfl rfl
    | locked => cases hresult
  | refresh now id caller requested =>
    have hresult : (table.refresh policy now id caller requested).1 = .ok token :=
      Answer.granted.inj h
    refine ⟨now, requested, rfl, ?_⟩
    unfold refresh at hresult
    split at hresult
    next => cases hresult
    next =>
      cases hresult
      exact hasLifetime_of_eq rfl rfl
  | unlock | current | under | release | releaseUnder => cases h

/-- A token that is found after one was put somewhere was there before, or is the one that was put
there. -/
theorem get?_or_inserted {locked : Path} {put : LockToken}
    (h : (PathMap.insert table locked put).get? path = some token) :
    table.get? path = some token ∨ put = token := by
  rw [PathMap.get?_insert] at h
  split at h
  · exact .inr (Option.some.inj h)
  · exact .inl h

/-- A token that is found after a call was there before, or the call has handed it out. -/
theorem get?_or_granted (hfiled : table.Filed) {call : Call}
    (h : (table.respond policy call).2.get? path = some token) :
    table.get? path = some token ∨ (table.respond policy call).1 = .granted (.ok token) := by
  cases call with
  | lock now fresh locked owner requested =>
    have hget : (table.lock policy now fresh locked owner requested).2.get? path = some token := h
    suffices hresult : table.get? path = some token ∨
        (table.lock policy now fresh locked owner requested).1 = .ok token from
      hresult.imp_right (congrArg Answer.granted)
    have hlocks := locks_lock policy table now fresh locked owner requested
    generalize table.lock policy now fresh locked owner requested = response at hget hlocks ⊢
    cases hlocks with
    | refused => exact .inl hget
    | granted | renewed => exact (get?_or_inserted hget).imp_right (congrArg Except.ok)
    | locked => exact .inl hget
  | refresh now id caller requested =>
    have hget : (table.refresh policy now id caller requested).2.get? path = some token := h
    suffices hresult : table.get? path = some token ∨
        (table.refresh policy now id caller requested).1 = .ok token from
      hresult.imp_right (congrArg Answer.granted)
    unfold refresh at hget ⊢
    have howns := table.owns_owned now id caller
    generalize table.owned now id caller = response at hget howns ⊢
    cases howns with
    | unknown => exact .inl hget
    | lapsed => exact .inl (get?_of_get?_erase hget)
    | foreign => exact .inl hget
    | own => exact (get?_or_inserted hget).imp_right (congrArg Except.ok)
  | unlock | current | under | release | releaseUnder =>
    -- None of these calls leaves a new token behind.
    cases origin_respond hfiled h with
    | kept hget => exact .inl hget

/-! ### What was granted last -/

/-- A call of a run hands a token out, at a reading of the clock and for a request, and no later
call of the run hands out one with the same identity. -/
def LastGranted (policy : LockPolicy) (calls : List Call) (token : LockToken) (now : Instant)
    (requested : Option Timeout) : Prop :=
  ∃ before granting later, calls = before ++ granting :: later ∧
    granting.request? = some (now, requested) ∧
    ((run policy .empty before).respond policy granting).1 = .granted (.ok token) ∧
    ∀ between next rest other, later = between ++ next :: rest →
      ((run policy .empty (before ++ granting :: between)).respond policy next).1 =
        .granted (.ok other) → other.id ≠ token.id

/-- A further call that hands out nothing with the identity of a token does not matter for it. -/
theorem LastGranted.concat {calls : List Call} {now : Instant} {requested : Option Timeout}
    (h : LastGranted policy calls token now requested) {next : Call}
    (hnext : ∀ other, ((run policy .empty calls).respond policy next).1 = .granted (.ok other) →
      other.id ≠ token.id) :
    LastGranted policy (calls ++ [next]) token now requested := by
  obtain ⟨before, granting, later, rfl, hrequest, hgranted, hlast⟩ := h
  refine ⟨before, granting, later ++ [next], by simp, hrequest, hgranted, ?_⟩
  intro between call rest other hlater hother
  induction rest using List.reverseRecOn with
  | nil =>
    -- This is the further call.
    obtain ⟨rfl, hcall⟩ := List.append_inj' hlater rfl
    cases hcall
    exact hnext other (by simpa using hother)
  | append_singleton front last =>
    -- This call comes before the further one.
    rw [← List.cons_append, ← List.append_assoc] at hlater
    exact hlast _ _ _ _ (List.append_inj' hlater rfl).1 hother

/-- Every token in the table was handed out by a call of the run, and has the lifetime that this
call asked for. -/
theorem lastGranted_run {calls : List Call} (hfresh : (issued calls).Nodup)
    (hget : (run policy .empty calls).get? path = some token) :
    ∃ now requested, LastGranted policy calls token now requested ∧
      HasLifetime policy token now requested := by
  -- Induction from the last call, which has handed the token out unless it was there before.
  induction calls using List.reverseRecOn with
  | nil => cases hget
  | append_singleton calls next ih =>
    have hsound := sound_run policy hfresh
    have hfresh : (issued calls).Nodup := by
      rw [issued, List.filterMap_append] at hfresh
      exact (List.nodup_append.1 hfresh).1
    have hfiled := (sound_run policy hfresh).filed
    rw [run_append, run_cons, run_nil] at hget hsound
    -- `hsound` is about the table after the last call, `hfiled` about the one before it.
    by_cases hgranted : ((run policy .empty calls).respond policy next).1 = .granted (.ok token)
    · obtain ⟨now, requested, hrequest, hlifetime⟩ := hasLifetime_of_granted hgranted
      exact ⟨now, requested, ⟨calls, next, [], rfl, hrequest, hgranted, by simp⟩, hlifetime⟩
    · obtain hold | hnew := get?_or_granted hfiled hget
      · obtain ⟨now, requested, hlast, hlifetime⟩ := ih hfresh hold
        refine ⟨now, requested, hlast.concat fun other hother hid => hgranted ?_, hlifetime⟩
        -- If this call handed out the same identity, then it would be on the same document.
        have hfound := (get?_of_granted hfiled hother).2
        have hpath := hsound.distinct _ _ _ _ hfound hget hid
        rw [hpath, hget] at hfound
        cases hfound
        exact hother
      · exact absurd hnew hgranted

/-- After every run from an empty table, tokens are kept under their own documents and have
different identities, if the identities set aside for new tokens are different. Each of them has the
lifetime that was asked for when it was handed out last. -/
theorem hasLifetime_run (policy : LockPolicy) {calls : List Call} (hfresh : (issued calls).Nodup) :
    let table := run policy .empty calls
    (∀ path token, table.get? path = some token → token.path = path) ∧
    (∀ first second one other, table.get? first = some one → table.get? second = some other →
      first ≠ second → one.id ≠ other.id) ∧
    ∀ path token, table.get? path = some token →
      ∃ now requested, LastGranted policy calls token now requested ∧
        HasLifetime policy token now requested := by
  intro table
  have hsound := sound_run policy hfresh
  refine ⟨hsound.filed, ?_, fun _ _ hget => lastGranted_run hfresh hget⟩
  intro first second one other hone hother hne hid
  exact hne (hsound.distinct _ _ _ _ hone hother hid)

/-- Alice gets the lock for the default lifetime, and has it renewed for good. Bob gets another
lock in between, for no time at all. -/
def minutesRenewed : List Call :=
  [.lock (atSecond 10) "first" minutes ⟨"alice"⟩ none,
    .lock (atSecond 15) "second" .root ⟨"bob"⟩ (some (.seconds 0)),
    .refresh (atSecond 20) "first" ⟨"alice"⟩ (some .infinite)]

/-- Alice's lock ends an hour after it was renewed, and bob's a second after he got it. -/
theorem hasLifetime_run_minutes :
    let table := run exceptCarol .empty minutesRenewed
    let alice : LockToken := .grant "first" minutes ⟨"alice"⟩ (.seconds 3600) (atSecond 20)
    let bob : LockToken := .grant "second" .root ⟨"bob"⟩ (.seconds 1) (atSecond 15)
    (issued minutesRenewed).Nodup ∧ table.get? minutes = some alice ∧
      table.get? .root = some bob ∧
      (∃ now requested, LastGranted exceptCarol minutesRenewed alice now requested ∧
        HasLifetime exceptCarol alice now requested) ∧
      ∃ now requested, LastGranted exceptCarol minutesRenewed bob now requested ∧
        HasLifetime exceptCarol bob now requested := by
  intro table alice bob
  have hfresh : (issued minutesRenewed).Nodup := by decide
  have halice : table.get? minutes = some alice := by decide +kernel
  have hbob : table.get? .root = some bob := by decide +kernel
  obtain ⟨-, -, hlifetime⟩ := hasLifetime_run exceptCarol hfresh
  exact ⟨hfresh, halice, hbob, hlifetime _ _ halice, hlifetime _ _ hbob⟩

end LockTable

end DocTree
