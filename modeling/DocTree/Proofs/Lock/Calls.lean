import DocTree.Proofs.Lock.Live

/-!
# Runs of a lock table

A lock table answers calls one after another, made by anybody about any document. Each call goes by
the clock as it is read for it; nothing is assumed about these readings. Whatever is called, tokens
are kept under their own documents and no two of them share an identity, as long as the identities
given to new tokens do not repeat.

## Main definitions

* `LockTable.Call`: a call, with `LockTable.respond` and `LockTable.run`.
* `LockTable.Origin`: where a token that is found after a call comes from.
* `LockTable.Sound`: the invariant of runs.

## Main results

* `LockTable.origin_respond`: every token found after a call was there before, or was granted or
  renewed by the call.
* `LockTable.sound_run`: the invariant holds after every run.
-/

namespace DocTree.LockTable

/-- A call on a lock table. -/
inductive Call where
  /-- A principal asks for the lock on a document; a new token gets the identity `fresh`. -/
  | lock (now : Instant) (fresh : String) (path : Path) (owner : Principal)
      (requested : Option Timeout)
  /-- A principal asks for a token to be renewed. -/
  | refresh (now : Instant) (id : String) (caller : Principal) (requested : Option Timeout)
  /-- A principal gives a token up. -/
  | unlock (now : Instant) (id : String) (caller : Principal)
  /-- The token on a document is looked up. -/
  | current (now : Instant) (path : Path)
  /-- The tokens at and below a path are looked up. -/
  | under (now : Instant) (path : Path)
  /-- The token on a document is dropped. -/
  | release (path : Path)
  /-- The tokens at and below a path are dropped. -/
  | releaseUnder (path : Path)

/-- What a call answers. -/
inductive Answer where
  /-- A token, or why there is none. -/
  | granted (result : Except LockError LockToken)
  /-- Whether a token was given up. -/
  | ended (result : Except LockError Unit)
  /-- The token on a document. -/
  | found (token : Option LockToken)
  /-- The tokens at and below a path. -/
  | listed (tokens : List LockToken)
  /-- How many tokens were dropped. -/
  | counted (number : Nat)

/-- The reading of the clock that a call goes by. -/
def Call.reading? : Call → Option Instant
  | lock now _ _ _ _ | refresh now _ _ _ | unlock now _ _ | current now _ | under now _ => some now
  | release _ | releaseUnder _ => none

/-- The identity that is set aside for a new token. -/
def Call.fresh? : Call → Option String
  | lock _ fresh _ _ _ => some fresh
  | _ => none

/-- The identities that are set aside for new tokens. -/
def issued (calls : List Call) : List String :=
  calls.filterMap Call.fresh?

/-- How a table answers a call. -/
def respond (policy : LockPolicy) (table : LockTable) : Call → Answer × LockTable
  | .lock now fresh path owner requested =>
    (table.lock policy now fresh path owner requested).map .granted (·)
  | .refresh now id caller requested =>
    (table.refresh policy now id caller requested).map .granted (·)
  | .unlock now id caller => (table.unlock now id caller).map .ended (·)
  | .current now path => (table.current now path).map .found (·)
  | .under now path => (table.under now path).map .listed (·)
  | .release path => (table.release path).map .found (·)
  | .releaseUnder path => (table.releaseUnder path).map .counted (·)

/-- A table after calls were made one after another. -/
def run (policy : LockPolicy) (table : LockTable) (calls : List Call) : LockTable :=
  calls.foldl (fun table call => (table.respond policy call).2) table

@[simp]
theorem run_nil (policy : LockPolicy) (table : LockTable) : table.run policy [] = table := rfl

@[simp]
theorem run_cons (policy : LockPolicy) (table : LockTable) (call : Call) (rest : List Call) :
    table.run policy (call :: rest) = (table.respond policy call).2.run policy rest := rfl

theorem run_append (policy : LockPolicy) (table : LockTable) (front back : List Call) :
    table.run policy (front ++ back) = (table.run policy front).run policy back :=
  List.foldl_append

/-! ### Where tokens come from -/

/-- Where a token that is found on a document after a call comes from. -/
inductive Origin (policy : LockPolicy) (table : LockTable) (path : Path) :
    Call → LockToken → Prop where
  /-- It was there. -/
  | kept {call : Call} {token : LockToken} (hget : table.get? path = some token) :
      Origin policy table path call token
  /-- The document was locked by nobody. -/
  | granted {now : Instant} {fresh : String} {owner : Principal} {requested : Option Timeout}
      (hmay : policy.permissions.mayWrite owner path = true)
      (hfree : table.live? now path = none) :
      Origin policy table path (.lock now fresh path owner requested)
        (.grant fresh path owner (policy.grantedTimeout requested) now)
  /-- Its owner asked for the lock once more. -/
  | relocked {now : Instant} {fresh : String} {requested : Option Timeout} {held : LockToken}
      (hmay : policy.permissions.mayWrite held.owner path = true)
      (hheld : table.live? now path = some held) :
      Origin policy table path (.lock now fresh path held.owner requested)
        (held.renew (policy.grantedTimeout requested) now)
  /-- Its owner asked for it to be renewed. -/
  | refreshed {now : Instant} {requested : Option Timeout} {held : LockToken}
      (hheld : table.live? now path = some held) :
      Origin policy table path (.refresh now held.id held.owner requested)
        (held.renew (policy.grantedTimeout requested) now)

variable {policy : LockPolicy} {table : LockTable} {path : Path} {token : LockToken}

theorem origin_lock {now : Instant} {fresh : String} {locked : Path} {owner : Principal}
    {requested : Option Timeout}
    (h : (table.lock policy now fresh locked owner requested).2.get? path = some token) :
    Origin policy table path (.lock now fresh locked owner requested) token := by
  have hlocks := locks_lock policy table now fresh locked owner requested
  generalize table.lock policy now fresh locked owner requested = response at h hlocks
  cases hlocks with
  | refused => exact .kept h
  | granted hmay hfree =>
    rw [PathMap.get?_insert] at h
    split at h
    next heq =>
      subst heq
      cases h
      exact .granted hmay hfree
    · exact .kept h
  | renewed hmay hheld howner =>
    rw [PathMap.get?_insert] at h
    split at h
    next heq =>
      subst heq howner
      cases h
      exact .relocked hmay hheld
    · exact .kept h
  | locked => exact .kept h

theorem origin_refresh (hfiled : table.Filed) {now : Instant} {id : String} {caller : Principal}
    {requested : Option Timeout}
    (h : (table.refresh policy now id caller requested).2.get? path = some token) :
    Origin policy table path (.refresh now id caller requested) token := by
  unfold refresh at h
  have howns := table.owns_owned now id caller
  generalize table.owned now id caller = response at h howns
  cases howns with
  | unknown => exact .kept h
  | lapsed => exact .kept (get?_of_get?_erase h)
  | foreign => exact .kept h
  | own hid hlive howner =>
    obtain ⟨hget, hid⟩ := of_withId? hid hfiled
    rw [PathMap.get?_insert] at h
    split at h
    next heq =>
      subst heq howner hid
      cases h
      exact .refreshed (live?_eq_some_iff.2 ⟨hget, hlive⟩)
    · exact .kept h

theorem get?_of_get?_unlock {now : Instant} {id : String} {caller : Principal}
    (h : (table.unlock now id caller).2.get? path = some token) :
    table.get? path = some token := by
  unfold unlock at h
  have howns := table.owns_owned now id caller
  generalize table.owned now id caller = response at h howns
  cases howns with
  | unknown => exact h
  | lapsed => exact get?_of_get?_erase h
  | foreign => exact h
  | own => exact get?_of_get?_erase h

/-- Every token found after a call was there before, or was granted or renewed by the call. -/
theorem origin_respond (hfiled : table.Filed) {call : Call}
    (h : (table.respond policy call).2.get? path = some token) :
    Origin policy table path call token := by
  cases call with
  | lock now fresh locked owner requested => exact origin_lock h
  | refresh now id caller requested => exact origin_refresh hfiled h
  | unlock now id caller => exact .kept (get?_of_get?_unlock h)
  | current now path => exact .kept ((table.evicts_current now path).get?_of_get? h)
  | under now above => exact .kept ((table.evicts_under now above).get?_of_get? h)
  | release gone => exact .kept (get?_of_get?_erase h)
  | releaseUnder above =>
    have hkept : (table.releaseUnder above).2.get? path = some token := h
    rw [get?_releaseUnder] at hkept
    split at hkept
    · cases hkept
    · exact .kept hkept

/-! ### What every run keeps -/

/-- Tokens are kept under their own documents, no two of them share an identity, and each identity
was set aside for it. -/
structure Sound (issued : List String) (table : LockTable) : Prop where
  /-- Tokens are kept under their own documents. -/
  filed : table.Filed
  /-- Identities are different. -/
  distinct : ∀ first second one other, table.get? first = some one →
    table.get? second = some other → one.id = other.id → first = second
  /-- Identities were set aside. -/
  issued : ∀ path token, table.get? path = some token → token.id ∈ issued

theorem Origin.path_eq {call : Call} (h : Origin policy table path call token)
    (hfiled : table.Filed) : token.path = path := by
  cases h with
  | kept hget => exact hfiled _ _ hget
  | granted => rfl
  | relocked _ hheld => exact (hfiled.path_eq_of_live? hheld :)
  | refreshed hheld => exact (hfiled.path_eq_of_live? hheld :)

/-- A token has an identity that was there on the same document, or the one that was set aside for
the document to be locked. -/
theorem Origin.id_eq {call : Call} (h : Origin policy table path call token) :
    (∃ old, table.get? path = some old ∧ token.id = old.id) ∨
      ∃ now owner requested, call = .lock now token.id path owner requested := by
  cases h with
  | kept hget => exact .inl ⟨token, hget, rfl⟩
  | granted => exact .inr ⟨_, _, _, rfl⟩
  | relocked _ hheld => exact .inl ⟨_, (live?_eq_some_iff.1 hheld).1, rfl⟩
  | refreshed hheld => exact .inl ⟨_, (live?_eq_some_iff.1 hheld).1, rfl⟩

theorem sound_empty (issued : List String) : Sound issued .empty :=
  ⟨filed_empty, nofun, nofun⟩

theorem filed_respond (policy : LockPolicy) (hfiled : table.Filed) (call : Call) :
    (table.respond policy call).2.Filed :=
  fun _ _ hget => (origin_respond hfiled hget).path_eq hfiled

/-- A call keeps the invariant, if the identity set aside for it is new. -/
theorem Sound.respond {issued : List String} (h : table.Sound issued) {call : Call}
    (hfresh : ∀ fresh, call.fresh? = some fresh → fresh ∉ issued) :
    (table.respond policy call).2.Sound (issued ++ call.fresh?.toList) := by
  refine ⟨filed_respond policy h.filed call, ?_, ?_⟩
  · intro first second one other hone hother hid
    rcases (origin_respond h.filed hone).id_eq with ⟨old, hold, hsame⟩ | ⟨_, _, _, hcall⟩ <;>
      rcases (origin_respond h.filed hother).id_eq with ⟨old', hold', hsame'⟩ | ⟨_, _, _, hcall'⟩
    · exact h.distinct _ _ _ _ hold hold' (by rw [← hsame, ← hsame', hid])
    -- The identity of an old token was set aside earlier.
    · refine absurd (h.issued _ _ hold) (hfresh _ ?_)
      rw [← hsame, hid, hcall']
      rfl
    · refine absurd (h.issued _ _ hold') (hfresh _ ?_)
      rw [← hsame', ← hid, hcall]
      rfl
    -- A call locks one document only.
    · rw [hcall'] at hcall
      exact (Call.lock.inj hcall).2.2.1.symm
  · intro path token hget
    rw [List.mem_append]
    rcases (origin_respond h.filed hget).id_eq with ⟨old, hold, hid⟩ | ⟨now, owner, requested, rfl⟩
    · exact .inl (hid ▸ h.issued _ _ hold)
    · exact .inr (by simp [Call.fresh?])

@[simp]
theorem issued_cons (call : Call) (rest : List Call) :
    issued (call :: rest) = call.fresh?.toList ++ issued rest := by
  cases hcall : call.fresh? <;> simp [issued, hcall]

/-- An identity that was set aside before is not set aside again. -/
theorem not_mem_of_nodup_issued {old : List String} {call : Call} {rest : List Call}
    (hfresh : (old ++ issued (call :: rest)).Nodup) {fresh : String}
    (hcall : call.fresh? = some fresh) : fresh ∉ old :=
  fun hmem => (List.nodup_append.1 hfresh).2.2 fresh hmem fresh (by simp [hcall]) rfl

theorem Sound.run {old : List String} (h : table.Sound old) {calls : List Call}
    (hfresh : (old ++ LockTable.issued calls).Nodup) :
    (table.run policy calls).Sound (old ++ LockTable.issued calls) := by
  induction calls generalizing table old with
  | nil => simpa [LockTable.issued] using h
  | cons call rest ih =>
    have hnext : (table.respond policy call).2.Sound (old ++ call.fresh?.toList) :=
      h.respond fun fresh hcall => not_mem_of_nodup_issued hfresh hcall
    rw [issued_cons, ← List.append_assoc] at hfresh ⊢
    exact ih hnext hfresh

/-- After every run from an empty table, tokens are kept under their own documents and have
different identities, if the identities set aside for new tokens are different. -/
theorem sound_run (policy : LockPolicy) {calls : List Call} (hfresh : (issued calls).Nodup) :
    (run policy .empty calls).Sound (issued calls) :=
  (sound_empty []).run hfresh

end DocTree.LockTable
