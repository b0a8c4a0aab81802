import DocTree.Proofs.Lock.Live
import DocTree.Proofs.Engine.Performing

/-!
# The locks around a mutation

Before a mutation, the locks of others on some of the paths that it touches are looked for; after
it, the locks on what it has removed are dropped. Which paths these are depends on the mutation
alone.

## Main definitions

* `Mutation.Guards`: the paths on which a lock stands in the way of a mutation.
* `Mutation.releases`: the paths on which a mutation ends all locks.
* `LockTable.FindsForeign`: what looking for the locks of others comes to.
* `Session.Checks`: the ways in which checking locks can go.

## Main results

* `Session.checks_checkLocks`: checking locks goes one of these ways.
* `LockTable.get?_releaseFor`: what is left of the locks after a mutation.
-/

namespace DocTree

variable {σ : Type}

/-- The paths on which a lock of somebody else stands in the way of a mutation. -/
def Mutation.Guards (mutation : Mutation) (path : Path) : Prop :=
  match mutation with
  | .createDocument target _ | .updateDocument target _ | .deleteDocument target
  | .copyDocument _ target => path = target
  | .moveDocument source destination => path = source ∨ path = destination
  | .moveCollection source _ | .deleteCollection source => path.startsWith source
  | .createCollection _ | .updateCollection _ | .copyCollection _ _ => False

/-- The paths on which a mutation ends all locks. -/
def Mutation.releases (mutation : Mutation) (path : Path) : Bool :=
  match mutation with
  | .deleteDocument source | .moveDocument source _ => path = source
  | .deleteCollection source | .moveCollection source _ => path.startsWith source
  | _ => false

theorem Mutation.Guards.touches {mutation : Mutation} {path : Path} (h : mutation.Guards path) :
    mutation.Touches path := by
  cases mutation with
  | createCollection | updateCollection | copyCollection => exact h.elim
  | createDocument | updateDocument | deleteDocument =>
    obtain rfl := h
    exact .inl (Path.startsWith_self _)
  | copyDocument =>
    obtain rfl := h
    exact .inr ⟨_, rfl, Path.startsWith_self _⟩
  | moveDocument =>
    obtain rfl | rfl := h
    · exact .inl (Path.startsWith_self _)
    · exact .inr ⟨_, rfl, Path.startsWith_self _⟩
  | moveCollection | deleteCollection => exact .inl h

namespace LockTable

variable {table : LockTable} {now : Instant} {principal : Principal} {path : Path}

/-! ### Looking for the locks of others -/

theorem fst_foreign (table : LockTable) (now : Instant) (principal : Principal) (path : Path) :
    (table.foreign now principal path).1 =
      (table.live? now path).filter fun token => token.owner ≠ principal := by
  rw [← fst_current]
  rfl

theorem evicts_foreign (table : LockTable) (now : Instant) (principal : Principal) (path : Path) :
    Evicts now table (table.foreign now principal path).2 :=
  table.evicts_current now path

theorem evicts_foreignUnder (table : LockTable) (now : Instant) (principal : Principal)
    (path : Path) : Evicts now table (table.foreignUnder now principal path).2 :=
  table.evicts_under now path

theorem evicts_conflict (table : LockTable) (now : Instant) (principal : Principal)
    (mutation : Mutation) : Evicts now table (table.conflict now principal mutation).2 := by
  cases mutation with
  | createCollection | updateCollection | copyCollection => exact .refl now table
  | createDocument path | updateDocument path | deleteDocument path =>
    exact table.evicts_foreign now principal path
  | copyDocument _ destination => exact table.evicts_foreign now principal destination
  | moveCollection source | deleteCollection source =>
    exact table.evicts_foreignUnder now principal source
  | moveDocument source destination =>
    have hsource := table.evicts_foreign now principal source
    rw [conflict]
    split
    next token first hfirst =>
      rw [hfirst] at hsource
      exact hsource
    next first hfirst =>
      rw [hfirst] at hsource
      exact hsource.trans (first.evicts_foreign now principal destination)

/-- What looking for the locks of others on some paths comes to: either there are none, or one of
them is found. -/
def FindsForeign (table : LockTable) (now : Instant) (principal : Principal)
    (watched : Path → Prop) : Option LockToken → Prop
  | none => ∀ path token, watched path → table.live? now path = some token →
      token.owner = principal
  | some token => watched token.path ∧ table.live? now token.path = some token ∧
      token.owner ≠ principal

theorem findsForeign_foreign (hfiled : table.Filed) (now : Instant) (principal : Principal)
    (path : Path) :
    table.FindsForeign now principal (· = path) (table.foreign now principal path).1 := by
  rw [fst_foreign]
  cases hfound : (table.live? now path).filter fun token => token.owner ≠ principal with
  | none =>
    rintro _ token rfl hheld
    simpa [hheld, Option.filter] using hfound
  | some token =>
    obtain ⟨hheld, hforeign⟩ := Option.filter_eq_some_iff.1 hfound
    have hpath := hfiled.path_eq_of_live? hheld
    exact ⟨hpath, hpath ▸ hheld, by simpa using hforeign⟩

theorem findsForeign_foreignUnder (hfiled : table.Filed) (now : Instant) (principal : Principal)
    (above : Path) :
    table.FindsForeign now principal (·.startsWith above)
      (table.foreignUnder now principal above).1 := by
  have hlisted : (table.foreignUnder now principal above).1 =
      (table.under now above).1.find? fun token => token.owner ≠ principal := rfl
  rw [hlisted]
  cases hfound : (table.under now above).1.find? fun token => token.owner ≠ principal with
  | none =>
    intro path token hbelow hheld
    obtain rfl := hfiled.path_eq_of_live? hheld
    simpa using List.find?_eq_none.1 hfound token ((mem_under_iff hfiled).2 ⟨hheld, hbelow⟩)
  | some token =>
    obtain ⟨hheld, hbelow⟩ := (mem_under_iff hfiled).1 (List.mem_of_find?_eq_some hfound)
    exact ⟨hbelow, hheld, by simpa using List.find?_some hfound⟩

theorem findsForeign_conflict (hfiled : table.Filed) (now : Instant) (principal : Principal)
    (mutation : Mutation) :
    table.FindsForeign now principal mutation.Guards (table.conflict now principal mutation).1 := by
  cases mutation with
  | createCollection | updateCollection | copyCollection => exact fun _ _ hno => hno.elim
  | createDocument path | updateDocument path | deleteDocument path =>
    exact findsForeign_foreign hfiled now principal path
  | copyDocument _ destination => exact findsForeign_foreign hfiled now principal destination
  | moveCollection source | deleteCollection source =>
    exact findsForeign_foreignUnder hfiled now principal source
  | moveDocument source destination =>
    -- The destination is looked up in the table that looking up the source has left.
    have hsource := findsForeign_foreign hfiled now principal source
    have hevicts := table.evicts_foreign now principal source
    rw [conflict]
    split
    next token first hfirst =>
      rw [hfirst] at hsource
      exact ⟨.inl hsource.1, hsource.2⟩
    next first hfirst =>
      rw [hfirst] at hsource hevicts
      have hdestination :=
        findsForeign_foreign (hevicts.filed hfiled) now principal destination
      cases hfound : (first.foreign now principal destination).1 with
      | none =>
        rw [hfound] at hdestination
        rintro path token (rfl | rfl) hheld
        · exact hsource _ token rfl hheld
        · exact hdestination _ token rfl ((hevicts.live?_eq _).trans hheld)
      | some token =>
        rw [hfound] at hdestination
        obtain ⟨hpath, hheld, hforeign⟩ := hdestination
        rw [hevicts.live?_eq] at hheld
        exact ⟨.inr hpath, hheld, hforeign⟩

/-! ### Dropping locks -/

/-- After a mutation, nothing is left of the locks on what it has removed, and all others are as
they were. -/
theorem get?_releaseFor (table : LockTable) (mutation : Mutation) (path : Path) :
    (table.releaseFor mutation).get? path =
      if mutation.releases path then none else table.get? path := by
  cases mutation with
  | deleteDocument source | moveDocument source =>
    simp [releaseFor, release, Mutation.releases, PathMap.get?_erase, eq_comm]
  | deleteCollection source | moveCollection source => exact get?_releaseUnder ..
  | _ => rfl

theorem live?_releaseFor (table : LockTable) (mutation : Mutation) (now : Instant) (path : Path) :
    (table.releaseFor mutation).live? now path =
      if mutation.releases path then none else table.live? now path := by
  rw [live?, get?_releaseFor]
  split <;> rfl

/-- What is left of the locks after a mutation was there before. -/
theorem Filed.releaseFor (hfiled : table.Filed) (mutation : Mutation) :
    (table.releaseFor mutation).Filed := by
  intro path token hget
  rw [get?_releaseFor] at hget
  split at hget
  · cases hget
  · exact hfiled path token hget

end LockTable

/-! ### The check -/

namespace Session

/-- The ways in which checking locks for a principal can go. -/
inductive Checks (session : Session σ) (principal : Principal) (mutation : Mutation) :
    Except MutationError Unit × Session σ → Prop where
  /-- No lock of somebody else stands in the way. -/
  | clear {locks : LockTable}
      (hevicts : LockTable.Evicts session.database.now session.database.locks locks)
      (hfree : ∀ path token, mutation.Guards path →
        session.database.locks.live? session.database.now path = some token →
        token.owner = principal) :
      Checks session principal mutation
        (.ok (), { session with database := { session.database with locks } })
  /-- A lock of somebody else stands in the way. -/
  | blocked {locks : LockTable} {token : LockToken}
      (hevicts : LockTable.Evicts session.database.now session.database.locks locks)
      (hguarded : mutation.Guards token.path)
      (hheld : session.database.locks.live? session.database.now token.path = some token)
      (hforeign : token.owner ≠ principal) :
      Checks session principal mutation
        (.error (.locked token.path token.owner),
          { session with database := { session.database with locks } })

variable {session : Session σ} {settings : Settings} {principal : Principal}

/-- Checking locks goes one of these ways. -/
theorem checks_checkLocks (henforced : settings.enforceLocks = true)
    (hprincipal : session.context.principal = some principal)
    (hfiled : session.database.locks.Filed) (mutation : Mutation) :
    session.Checks principal mutation (session.checkLocks settings mutation) := by
  have hevicts := session.database.locks.evicts_conflict session.database.now principal mutation
  have hfinds := LockTable.findsForeign_conflict hfiled session.database.now principal mutation
  unfold checkLocks
  rw [henforced, hprincipal]
  dsimp only
  generalize session.database.locks.conflict session.database.now principal mutation = response
    at hevicts hfinds ⊢
  obtain ⟨_ | token, locks⟩ := response
  · exact .clear hevicts hfinds
  · exact .blocked hevicts hfinds.1 hfinds.2.1 hfinds.2.2

/-- Whoever is checked, checking locks drops nothing but expired tokens. -/
theorem evicts_of_checkLocks {result : Except MutationError Unit} {after : Session σ}
    {mutation : Mutation} (h : session.checkLocks settings mutation = (result, after)) :
    ∃ locks, after = { session with database := { session.database with locks } } ∧
      LockTable.Evicts session.database.now session.database.locks locks := by
  unfold checkLocks at h
  split at h
  next principal _ _ =>
    have hevicts :=
      session.database.locks.evicts_conflict session.database.now principal mutation
    dsimp only at h
    split at h <;> exact ⟨_, (Prod.mk.inj h).2.symm, hevicts⟩
  · exact ⟨session.database.locks, (Prod.mk.inj h).2.symm, .refl _ _⟩

/-! ### The end of a mutation -/

variable {transaction : TransactionId} {mutation : Mutation}

@[simp]
theorem locks_dropConfig :
    ((session.dropLocks mutation).dropConfig settings transaction mutation).database.locks =
      session.database.locks.releaseFor mutation := by
  unfold dropConfig Database.recordChanges
  dsimp only
  split <;> rfl

@[simp]
theorem clock_dropConfig :
    ((session.dropLocks mutation).dropConfig settings transaction mutation).database.clock =
      session.database.clock := by
  unfold dropConfig Database.recordChanges
  dsimp only
  split <;> rfl

end Session

end DocTree
