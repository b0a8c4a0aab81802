import DocTree.Proofs.Engine.Guarding

/-!
# Locks and transactions that are taken back

When a mutation has succeeded, the locks on what it has removed are dropped at once, while the
transaction that it belongs to may still be taken back. Taking it back restores the documents but
not their locks: whichever way a transaction ends, the locks that are left are those on which none
of the mutations applied in the meantime has had an effect.

Between the two, while the hooks of the second phase run, a mutation is applied but has not dropped
any locks yet. The account of the locks that is kept along the way therefore lists the mutations of
which this is true.

## Main definitions

* `releasedBy`: a path on which one of several mutations ends the locks.
* `Database.AppliedSince`: the mutations that the store has applied in the meantime.
* `Database.Accounted`: the locks are those that the applied mutations have left, up to pending
  ones.
* `Database.LocksAccounted`: the same with nothing pending.
* `Environment.Within`: what can happen in a transaction before it ends.

## Main results

* `Environment.accounted_perform`: mutations keep the account.
* `Environment.locksAccounted_transaction`: taking a transaction back does not give any locks back.
-/

namespace DocTree

variable {L : HookLanguage} {σ : Type}

/-- One of several mutations ends the locks on a path. -/
def releasedBy (mutations : List Mutation) (path : Path) : Bool :=
  mutations.any fun mutation => mutation.releases path

theorem releasedBy_append (front back : List Mutation) (path : Path) :
    releasedBy (front ++ back) path = (releasedBy front path || releasedBy back path) :=
  List.any_append

namespace Database

variable {origin database : Database} {pending : List Mutation}

/-- The mutations that the store has applied since a database was in an earlier state. -/
def AppliedSince (origin database : Database) (applied : List Mutation) : Prop :=
  ∃ entries, database.store.journal = origin.store.journal ++ entries ∧
    applied = entries.map JournalEntry.mutation

theorem AppliedSince.congr {applied : List Mutation} (h : AppliedSince origin database applied)
    {after : Database} (hjournal : after.store.journal = database.store.journal) :
    AppliedSince origin after applied := by
  obtain ⟨entries, hentries, rfl⟩ := h
  exact ⟨entries, hjournal.trans hentries, rfl⟩

theorem AppliedSince.append {applied : List Mutation} (h : AppliedSince origin database applied)
    {after : Database} {entries : List JournalEntry}
    (hjournal : after.store.journal = database.store.journal ++ entries) :
    AppliedSince origin after (applied ++ entries.map JournalEntry.mutation) := by
  obtain ⟨earlier, hearlier, rfl⟩ := h
  refine ⟨earlier ++ entries, ?_, List.map_append.symm⟩
  rw [hjournal, hearlier, List.append_assoc]

/-- The clock stands still, and the locks are those that mutations applied since have left; some of
these mutations are pending and have not dropped their locks yet. -/
def Accounted (origin : Database) (pending : List Mutation) (database : Database) : Prop :=
  database.clock = origin.clock ∧
    ∃ applied dropped, AppliedSince origin database applied ∧
      (∀ path, releasedBy applied path = (releasedBy dropped path || releasedBy pending path)) ∧
      ∀ path, database.locks.live? origin.now path =
        if releasedBy dropped path then none else origin.locks.live? origin.now path

/-- The clock stands still, and a lock that was live in an earlier state is live unless one of the
mutations applied since has ended it; there are no other live locks. -/
def LocksAccounted (origin database : Database) : Prop :=
  database.clock = origin.clock ∧
    ∃ applied, AppliedSince origin database applied ∧
      ∀ path, database.locks.live? origin.now path =
        if releasedBy applied path then none else origin.locks.live? origin.now path

namespace Accounted

theorem refl (origin : Database) : origin.Accounted [] origin :=
  ⟨rfl, [], [], ⟨[], (List.append_nil _).symm, rfl⟩, fun _ => rfl, fun _ => rfl⟩

/-- What leaves the clock, the journal and the live locks alone does not matter. -/
theorem congr (h : origin.Accounted pending database) {after : Database}
    (hclock : after.clock = database.clock)
    (hjournal : after.store.journal = database.store.journal)
    (hlive : ∀ path, after.locks.live? origin.now path = database.locks.live? origin.now path) :
    origin.Accounted pending after := by
  obtain ⟨hstill, applied, dropped, happlied, hsplit, hlocks⟩ := h
  exact ⟨hclock.trans hstill, applied, dropped, happlied.congr hjournal, hsplit,
    fun path => (hlive path).trans (hlocks path)⟩

/-- A mutation that the store has just applied is pending. -/
theorem applied (h : origin.Accounted pending database) {transaction : TransactionId}
    {mutation : Mutation} {store : Store}
    (hstore : database.store.perform transaction mutation = .ok store) :
    origin.Accounted (mutation :: pending) { database with store } := by
  obtain ⟨hstill, applied, dropped, happlied, hsplit, hlocks⟩ := h
  refine ⟨hstill, _, dropped, happlied.append (Store.journal_of_perform hstore), fun path => ?_,
    hlocks⟩
  rw [releasedBy_append, hsplit]
  simp [releasedBy, Bool.or_assoc, Bool.or_comm]

/-- Creating collections ends no locks. -/
theorem created (h : origin.Accounted pending database) {transaction : TransactionId}
    {collections : List Path} {after : Database} (hclock : after.clock = database.clock)
    (hlocks : after.locks = database.locks)
    (hjournal : after.store.journal = database.store.journal ++
      collections.map fun path => ⟨transaction, .createCollection path⟩) :
    origin.Accounted pending after := by
  obtain ⟨hstill, applied, dropped, happlied, hsplit, hleft⟩ := h
  refine ⟨hclock.trans hstill, _, dropped, happlied.append hjournal, fun path => ?_,
    hlocks ▸ hleft⟩
  rw [releasedBy_append, hsplit]
  simp [releasedBy, Mutation.releases]

/-- A pending mutation that drops its locks is not pending any more. -/
theorem dropped {mutation : Mutation} (h : origin.Accounted (mutation :: pending) database)
    {after : Database} (hclock : after.clock = database.clock)
    (hjournal : after.store.journal = database.store.journal)
    (hlocks : after.locks = database.locks.releaseFor mutation) :
    origin.Accounted pending after := by
  obtain ⟨hstill, applied, dropped, happlied, hsplit, hleft⟩ := h
  -- It is counted among those that have dropped their locks instead.
  refine ⟨hclock.trans hstill, applied, mutation :: dropped, happlied.congr hjournal,
    fun path => ?_, fun path => ?_⟩
  · rw [hsplit]
    simp [releasedBy, Bool.or_assoc, Bool.or_left_comm]
  · rw [hlocks, LockTable.live?_releaseFor, hleft]
    by_cases hreleases : mutation.releases path
    · simp [releasedBy, hreleases]
    · simp [releasedBy, hreleases]

theorem locksAccounted (h : origin.Accounted [] database) : origin.LocksAccounted database := by
  obtain ⟨hstill, applied, dropped, happlied, hsplit, hlocks⟩ := h
  refine ⟨hstill, applied, happlied, fun path => ?_⟩
  rw [hlocks, hsplit, releasedBy, releasedBy, List.any_nil, Bool.or_false]

end Accounted

/-! ### Ending a transaction -/

theorem locks_closeRecord (transaction : TransactionId) (rolledBack : Bool) :
    (database.closeRecord transaction rolledBack).locks = database.locks := by
  unfold closeRecord
  split
  · rfl
  · cases rolledBack <;> rfl

theorem clock_closeRecord (transaction : TransactionId) (rolledBack : Bool) :
    (database.closeRecord transaction rolledBack).clock = database.clock := by
  unfold closeRecord
  split
  · rfl
  · cases rolledBack <;> rfl

/-- The record of a transaction has nothing to do with locks. -/
theorem Accounted.closeRecord (h : origin.Accounted pending database) {store : Store}
    (hjournal : store.journal = database.store.journal) (transaction : TransactionId)
    (rolledBack : Bool) :
    origin.Accounted pending ({ database with store }.closeRecord transaction rolledBack) := by
  refine h.congr (clock_closeRecord ..) ?_ fun path => ?_
  · rw [store_closeRecord, hjournal]
  · rw [locks_closeRecord]

theorem Accounted.endWith (h : origin.Accounted pending database) (transaction : TransactionId)
    {result : Except StoreError Store}
    (hresult : ∀ store, result = .ok store → store.journal = database.store.journal)
    (rolledBack : Bool) :
    origin.Accounted pending (database.endWith transaction result rolledBack).2 := by
  cases result with
  | error error => exact h.closeRecord rfl transaction true
  | ok store => exact h.closeRecord (hresult store rfl) transaction rolledBack

theorem Accounted.commit (h : origin.Accounted pending database) (transaction : TransactionId) :
    origin.Accounted pending (database.commit transaction).2 := by
  refine h.endWith transaction (fun store hstore => ?_) false
  obtain ⟨_, -, hcommitted⟩ := bind_eq_ok_iff.1 hstore
  cases hcommitted
  rfl

theorem Accounted.abort (h : origin.Accounted pending database) (transaction : TransactionId) :
    origin.Accounted pending (database.abort transaction).2 := by
  refine h.endWith transaction (fun store hstore => ?_) true
  obtain ⟨_, -, haborted⟩ := bind_eq_ok_iff.1 hstore
  cases haborted
  rfl

end Database

namespace Environment

variable {env : Environment L σ} {host : Host σ} {transaction : TransactionId}
  {origin : Database}

/-- Nothing done for the hooks of a transaction breaks the account. -/
theorem accountedInvariant {pending : List Mutation}
    (hhost : ∀ mutation session, origin.Accounted pending session.database →
      origin.Accounted pending (host transaction mutation session).2.database) :
    env.DatabaseInvariant host transaction (origin.Accounted pending) where
  host := hhost
  resolve database collection h := by
    obtain ⟨created, hjournal⟩ :=
      Resolver.journal_ensureRoot env.settings database.resolver database.store
    rw [← Resolver.store_resolve env.settings database.resolver database.store collection]
      at hjournal
    exact h.created rfl rfl hjournal
  failures _ _ h := h.congr rfl rfl fun _ => rfl

/-- If the mutations of hooks keep the account, whatever is pending, then so does performing a
mutation. -/
theorem accounted_performWith (hkeeps : env.evaluator.KeepsDatabase)
    (hhost : ∀ pending mutation session, origin.Accounted pending session.database →
      origin.Accounted pending (host transaction mutation session).2.database)
    (pending : List Mutation) (mutation : Mutation) (session : Session σ)
    (h : origin.Accounted pending session.database) :
    origin.Accounted pending (env.performWith host transaction mutation session).2.database := by
  -- While the hooks of the second phase run, the mutation itself is pending, too.
  refine (accountedInvariant (hhost pending)).performWith_of_checked
    (accountedInvariant (hhost (mutation :: pending))) hkeeps (fun result checked hcheck => ?_)
    (fun _ _ _ _ htold hstore => htold.applied hstore) (fun ran hran => ?_)
  · obtain ⟨locks, rfl, hevicts⟩ := Session.evicts_of_checkLocks hcheck
    have hnow : session.database.now = origin.now := congrArg SteppedClock.now h.1
    rw [hnow] at hevicts
    exact h.congr rfl rfl hevicts.live?_eq
  · refine hran.dropped Session.clock_dropConfig ?_ Session.locks_dropConfig
    rw [Session.store_dropConfig]

theorem accounted_perform (hkeeps : env.evaluator.KeepsDatabase) (pending : List Mutation)
    (mutation : Mutation) (session : Session σ) (h : origin.Accounted pending session.database) :
    origin.Accounted pending (env.perform transaction mutation session).2.database :=
  perform_induction (K := fun host => ∀ pending mutation session,
      origin.Accounted pending session.database →
      origin.Accounted pending (host transaction mutation session).2.database)
    (fun _ _ _ hidle => hidle) (fun _ hhost => accounted_performWith hkeeps hhost)
    pending mutation session h

/-! ### Whole transactions -/

/-- What can happen in a transaction before it ends: mutations are performed in it, each for
whomever and with whatever state of the hook evaluator. -/
inductive Within (env : Environment L σ) (transaction : TransactionId) (opened : Session σ) :
    Session σ → Prop where
  /-- Nothing has happened yet. -/
  | opened : Within env transaction opened opened
  /-- One more mutation is performed. -/
  | perform {session : Session σ} (h : Within env transaction opened session)
      (mutation : Mutation) :
      Within env transaction opened (env.perform transaction mutation session).2
  /-- The context or the hook evaluator changes. -/
  | aside {before after : Session σ} (h : Within env transaction opened before)
      (hdatabase : after.database = before.database) : Within env transaction opened after

theorem accounted_of_within (hkeeps : env.evaluator.KeepsDatabase) {opened session : Session σ}
    (h : env.Within transaction opened session) (hopened : origin.Accounted [] opened.database) :
    origin.Accounted [] session.database := by
  induction h with
  | opened => exact hopened
  | perform _ mutation ih => exact accounted_perform hkeeps [] mutation _ ih
  | aside _ hdatabase ih =>
    rw [hdatabase]
    exact ih

/-- Whether mutations performed in a transaction are taken back at last, or a body is run in a
transaction of its own, that may be taken back as well: a lock that was live when the transaction
was opened is live at the end exactly if none of the mutations applied in the meantime has ended it,
those that were taken back included. -/
theorem locksAccounted_transaction (hkeeps : env.evaluator.KeepsDatabase) (session : Session σ) :
    (∀ ran, env.Within session.beginTransaction.1 session.beginTransaction.2 ran →
      session.database.LocksAccounted (ran.abort session.beginTransaction.1).2.database) ∧
    ∀ {α : Type} (body : Script L (Except MutationError α)),
      session.database.LocksAccounted (env.transaction body session).2.database := by
  have hopened : session.database.Accounted [] session.beginTransaction.2.database :=
    (Database.Accounted.refl _).congr rfl rfl fun _ => rfl
  refine ⟨fun ran hran => ?_, fun {α} body => ?_⟩
  · exact ((accounted_of_within hkeeps hran hopened).abort _).locksAccounted
  · have hran : session.database.Accounted []
        (env.runBody session.beginTransaction.1 body session.beginTransaction.2).2.database := by
      refine Script.run_invariant
        (P := fun state : Session σ => session.database.Accounted [] state.database)
        (accounted_perform hkeeps []) (fun op state hstate => ?_) body hopened
      rw [hkeeps]
      exact hstate
    unfold transaction
    dsimp only
    -- The body is followed by a commit or an abort.
    split
    · exact (hran.commit _).locksAccounted
    · exact (hran.abort _).locksAccounted

/-- A body that deletes the draft on which bob holds the lock, and then gives up. -/
def deletingDraft : Script .mutationsOnly (Except MutationError Unit) :=
  .perform (.deleteDocument (fileIn drafts "b")) fun _ =>
  .done (.error (.storage (.notFound .root)))

/-- When bob's draft is back, he does not hold its lock any more, while alice still holds hers. -/
theorem locksAccounted_deletingDraft :
    copying.evaluator.KeepsDatabase ∧
    (copying.transaction deletingDraft sharedDrafts).1 = .error (.storage (.notFound .root)) ∧
    (copying.transaction deletingDraft sharedDrafts).2.database.store.tree =
      sharedDrafts.database.store.tree ∧
    sharedDrafts.database.LocksAccounted
      (copying.transaction deletingDraft sharedDrafts).2.database ∧
    (copying.transaction deletingDraft sharedDrafts).2.database.locks.live?
      sharedDrafts.database.now (fileIn drafts "b") = none ∧
    (copying.transaction deletingDraft sharedDrafts).2.database.locks.live?
        sharedDrafts.database.now (fileIn drafts "a") =
      sharedDrafts.database.locks.live? sharedDrafts.database.now (fileIn drafts "a") :=
  have hkeeps := copying.evaluator.keepsDatabase_of_mutationsOnly
  ⟨hkeeps, by decide +kernel, by decide +kernel,
    (locksAccounted_transaction hkeeps sharedDrafts).2 deletingDraft, by decide +kernel,
    by decide +kernel⟩

/-- Taking a transaction back can cost locks. -/
theorem not_live?_rolledBack :
    ¬∀ (session : Session Unit) (body : Script .mutationsOnly (Except MutationError Unit)) error,
      (copying.transaction body session).1 = .error error →
      ∀ path token, session.database.locks.live? session.database.now path = some token →
        (copying.transaction body session).2.database.locks.live? session.database.now path =
          some token := by
  intro h
  have hheld : (sharedDrafts.database.locks.live? sharedDrafts.database.now
      (fileIn drafts "b")).isSome = true := by
    decide +kernel
  obtain ⟨token, htoken⟩ := Option.isSome_iff_exists.1 hheld
  have hkept := h sharedDrafts deletingDraft (.storage (.notFound .root)) (by decide +kernel)
    (fileIn drafts "b") token htoken
  have hgone : (copying.transaction deletingDraft sharedDrafts).2.database.locks.live?
      sharedDrafts.database.now (fileIn drafts "b") = none := by
    decide +kernel
  rw [hgone] at hkept
  cases hkept

end Environment

end DocTree
