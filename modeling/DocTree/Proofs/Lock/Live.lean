import DocTree.Lock.Table
import DocTree.Proofs.Path.Range

/-!
# Live tokens

What a lock table says about a document at an instant is the token kept there, unless it has expired
by then. Operations drop expired tokens whenever they come across them, and nothing that is said
about that instant depends on it.

## Main definitions

* `LockTable.live?`: the live token on a document.
* `LockTable.Filed`: every token is kept under the document that it locks.
* `LockTable.Evicts`: some expired tokens were dropped.

## Main results

* `LockTable.Evicts.live?_eq`: dropping expired tokens does not change which tokens are live.
* `LockTable.fst_current` and `LockTable.mem_under_iff`: looking tokens up finds the live ones.
* `LockTable.locks_lock` and `LockTable.owns_owned`: the ways in which locking a document, and the
  search for a token by its identity, can go.
-/

namespace DocTree.LockTable

variable {table after : LockTable} {now : Instant} {path : Path} {token : LockToken}

/-- The live token on a document. -/
def live? (table : LockTable) (now : Instant) (path : Path) : Option LockToken :=
  (table.get? path).filter fun token => !token.isExpired now

/-- Every token is kept under the document that it locks. -/
def Filed (table : LockTable) : Prop :=
  ∀ path token, table.get? path = some token → token.path = path

/-- Tokens that have expired may be gone; everything else is as it was. -/
def Evicts (now : Instant) (table after : LockTable) : Prop :=
  ∀ path, after.get? path = table.get? path ∨
    after.get? path = none ∧ table.live? now path = none

theorem live?_eq_some_iff :
    table.live? now path = some token ↔
      table.get? path = some token ∧ token.isExpired now = false := by
  simp [live?, Option.filter_eq_some_iff]

theorem live?_eq_none_of_get? (h : table.get? path = none) : table.live? now path = none := by
  rw [live?, h]
  rfl

theorem live?_congr (h : after.get? path = table.get? path) :
    after.live? now path = table.live? now path := by
  rw [live?, live?, h]

@[simp]
theorem filed_empty : Filed .empty := nofun

theorem filed_iff : table.Filed ↔ ∀ entry ∈ table.entries, entry.2.path = entry.1 := by
  constructor
  · rintro h ⟨path, token⟩ hentry
    exact h path token (PathMap.mem_entries_iff.1 hentry)
  · intro h path token hget
    exact h (path, token) (PathMap.mem_entries_iff.2 hget)

instance : Decidable table.Filed :=
  decidable_of_iff _ filed_iff.symm

theorem Filed.path_eq_of_live? (hfiled : table.Filed) (h : table.live? now path = some token) :
    token.path = path :=
  hfiled path token (live?_eq_some_iff.1 h).1

/-! ### Dropping expired tokens -/

namespace Evicts

@[refl]
theorem refl (now : Instant) (table : LockTable) : Evicts now table table :=
  fun _ => .inl rfl

theorem live?_eq (h : Evicts now table after) (path : Path) :
    after.live? now path = table.live? now path := by
  rcases h path with hkept | ⟨hgone, hexpired⟩
  · exact live?_congr hkept
  · rw [hexpired, live?_eq_none_of_get? hgone]

theorem trans {last : LockTable} (h : Evicts now table after) (hnext : Evicts now after last) :
    Evicts now table last := by
  intro path
  rcases hnext path with hkept | ⟨hgone, hexpired⟩
  · rw [hkept]
    exact h path
  · -- What has expired in between had expired before, since dropping tokens revives none.
    rw [h.live?_eq] at hexpired
    exact .inr ⟨hgone, hexpired⟩

theorem get?_of_get? (h : Evicts now table after) (hget : after.get? path = some token) :
    table.get? path = some token := by
  rcases h path with hkept | ⟨hgone, -⟩
  · rw [← hkept, hget]
  · rw [hgone] at hget
    cases hget

theorem filed (h : Evicts now table after) (hfiled : table.Filed) : after.Filed :=
  fun path token hget => hfiled path token (h.get?_of_get? hget)

end Evicts

/-! ### Looking tokens up -/

/-- Dropping an expired token is dropping expired tokens. -/
theorem evicts_erase (h : table.live? now path = none) : Evicts now table (table.erase path) := by
  intro other
  rw [PathMap.get?_erase]
  split
  next hother => exact .inr ⟨rfl, hother ▸ h⟩
  · exact .inl rfl

theorem get?_evict (table : LockTable) (now : Instant) (path : Path) :
    (table.evict now).get? path = table.live? now path :=
  PathMap.get?_filter ..

theorem evicts_evict (table : LockTable) (now : Instant) : Evicts now table (table.evict now) := by
  intro path
  rw [get?_evict]
  cases hlive : table.live? now path with
  | some token => exact .inl (live?_eq_some_iff.1 hlive).1.symm
  | none => exact .inr ⟨rfl, rfl⟩

theorem fst_current (table : LockTable) (now : Instant) (path : Path) :
    (table.current now path).1 = table.live? now path := by
  unfold current live?
  cases table.get? path with
  | none => rfl
  | some token =>
    by_cases hexpired : token.isExpired now
    · simp [Option.filter, hexpired]
    · simp [Option.filter, hexpired]

theorem evicts_current (table : LockTable) (now : Instant) (path : Path) :
    Evicts now table (table.current now path).2 := by
  have hlive := table.fst_current now path
  unfold current at hlive ⊢
  split at hlive
  next token hget =>
    split at hlive
    next hexpired =>
      rw [if_pos hexpired]
      exact evicts_erase hlive.symm
    next hexpired =>
      rw [if_neg hexpired]
  · rfl

/-- The tokens found at and below a path are the live ones of the documents there. -/
theorem mem_under_iff (hfiled : table.Filed) {above : Path} :
    token ∈ (table.under now above).1 ↔
      table.live? now token.path = some token ∧ token.path.startsWith above := by
  rw [under]
  simp only [List.mem_filter, PathMap.mem_values_iff, get?_evict]
  constructor
  · -- The tokens are listed without the paths they are kept under.
    rintro ⟨⟨key, hlive⟩, hbelow⟩
    exact ⟨hfiled.path_eq_of_live? hlive ▸ hlive, hbelow⟩
  · rintro ⟨hlive, hbelow⟩
    exact ⟨⟨token.path, hlive⟩, hbelow⟩

theorem evicts_under (table : LockTable) (now : Instant) (above : Path) :
    Evicts now table (table.under now above).2 :=
  table.evicts_evict now

/-! ### Dropping tokens with their documents -/

/-- Look-up in a table from which a token was dropped finds what was there. -/
theorem get?_of_get?_erase {gone : Path} (h : (table.erase gone).get? path = some token) :
    table.get? path = some token := by
  rw [PathMap.get?_erase] at h
  split at h
  · cases h
  · exact h

theorem get?_releaseUnder (table : LockTable) (above path : Path) :
    (table.releaseUnder above).2.get? path =
      if path.startsWith above then none else table.get? path := by
  rw [releaseUnder, PathMap.get?_filter]
  cases table.get? path with
  | none => simp
  | some token => by_cases hbelow : path.startsWith above <;> simp [Option.filter, hbelow]

/-! ### Locking -/

/-- The ways in which a request to lock a document can go. -/
inductive Locks (policy : LockPolicy) (table : LockTable) (now : Instant) (fresh : String)
    (path : Path) (owner : Principal) (requested : Option Timeout) :
    Except LockError LockToken × LockTable → Prop where
  /-- The principal may not write there. -/
  | refused (hmay : policy.permissions.mayWrite owner path = false) :
      Locks policy table now fresh path owner requested (.error (.mayNotWrite owner path), table)
  /-- Nobody holds the lock, and the principal gets it. -/
  | granted (hmay : policy.permissions.mayWrite owner path = true)
      (hfree : table.live? now path = none) :
      Locks policy table now fresh path owner requested
        (.ok (.grant fresh path owner (policy.grantedTimeout requested) now),
          table.insert path (.grant fresh path owner (policy.grantedTimeout requested) now))
  /-- The principal holds the lock already, and has it renewed. -/
  | renewed {held : LockToken} (hmay : policy.permissions.mayWrite owner path = true)
      (hheld : table.live? now path = some held) (howner : held.owner = owner) :
      Locks policy table now fresh path owner requested
        (.ok (held.renew (policy.grantedTimeout requested) now),
          table.insert path (held.renew (policy.grantedTimeout requested) now))
  /-- Somebody else holds the lock. -/
  | locked {held : LockToken} (hmay : policy.permissions.mayWrite owner path = true)
      (hheld : table.live? now path = some held) (howner : held.owner ≠ owner) :
      Locks policy table now fresh path owner requested
        (.error (.alreadyLocked path held.owner), table)

theorem locks_lock (policy : LockPolicy) (table : LockTable) (now : Instant) (fresh : String)
    (path : Path) (owner : Principal) (requested : Option Timeout) :
    Locks policy table now fresh path owner requested
      (table.lock policy now fresh path owner requested) := by
  unfold lock
  split
  next hmay => exact .refused (by simpa using hmay)
  next hmay =>
    have hmay : policy.permissions.mayWrite owner path = true := by simpa using hmay
    dsimp only
    split
    next held hget =>
      split
      next hexpired => exact .granted hmay (by simp [live?, hget, Option.filter, hexpired])
      next hlive =>
        have hheld := live?_eq_some_iff.2 ⟨hget, Bool.eq_false_iff.2 hlive⟩
        split
        next howner => exact .renewed hmay hheld howner
        next howner => exact .locked hmay hheld howner
    next hget => exact .granted hmay (live?_eq_none_of_get? hget)

/-! ### Looking for an identity -/

theorem of_withId? {id : String} (h : table.withId? id = some token) (hfiled : table.Filed) :
    table.get? token.path = some token ∧ token.id = id := by
  have hid : token.id = id := by simpa using List.find?_some h
  obtain ⟨key, hget⟩ := PathMap.mem_values_iff.1 (List.mem_of_find?_eq_some h)
  have hkey := hfiled key token hget
  exact ⟨hkey ▸ hget, hid⟩

theorem eq_of_withId? {id : String} {other : LockToken} (h : table.withId? id = some other)
    (hfiled : table.Filed) (hget : table.get? token.path = some token)
    (hpath : other.path = token.path) : other = token := by
  have hother := (of_withId? h hfiled).1
  rw [hpath, hget] at hother
  exact (Option.some.inj hother).symm

/-- The ways in which the search for a token on behalf of its owner can go. -/
inductive Owns (table : LockTable) (now : Instant) (id : String) (caller : Principal) :
    Except LockError LockToken × LockTable → Prop where
  /-- No token has the identity. -/
  | unknown (hid : table.withId? id = none) :
      Owns table now id caller (.error (.notLocked id), table)
  /-- The token has expired, and is dropped. -/
  | lapsed {token : LockToken} (hid : table.withId? id = some token)
      (hexpired : token.isExpired now = true) :
      Owns table now id caller (.error (.notLocked id), table.erase token.path)
  /-- The token belongs to somebody else. -/
  | foreign {token : LockToken} (hid : table.withId? id = some token)
      (hlive : token.isExpired now = false) (howner : token.owner ≠ caller) :
      Owns table now id caller (.error (.notOwner caller token.path token.owner), table)
  /-- The token is found. -/
  | own {token : LockToken} (hid : table.withId? id = some token)
      (hlive : token.isExpired now = false) (howner : token.owner = caller) :
      Owns table now id caller (.ok token, table)

theorem owns_owned (table : LockTable) (now : Instant) (id : String) (caller : Principal) :
    table.Owns now id caller (table.owned now id caller) := by
  unfold owned
  split
  next hid => exact .unknown hid
  next token hid =>
    split
    next hexpired => exact .lapsed hid hexpired
    next hlive =>
      rw [Bool.not_eq_true] at hlive
      split
      next howner => exact .own hid hlive howner
      next howner => exact .foreign hid hlive howner

end DocTree.LockTable
