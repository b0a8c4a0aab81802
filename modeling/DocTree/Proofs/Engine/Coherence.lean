import DocTree.Engine.Transaction
import DocTree.Proofs.Config.Resolving
import DocTree.Proofs.Engine.Performing

/-!
# The coherence of cached configurations

What is cached for a collection agrees with the tree. Three kinds of change put this at risk: a
mutation changes configuration documents that were read already, a rollback takes such changes back
after they were read, and the creation of the configuration root changes the tree. They are met by
dropping configuration after every mutation, by the record of what each transaction dropped, and by
creating the root before anything is cached.

Between the application of a mutation and the dropping of configuration at its end, hooks run and
may resolve configuration themselves, so the invariant is stated up to a list of collections in
doubt: those that some mutation under way is going to drop.

## Main definitions

* `Database.CoherentUpTo`: the invariant, up to the collections in doubt for a transaction.
* `Database.Coherent`: the invariant with nothing in doubt.
* `Database.Standing`: the configuration root was seen to, and a transaction is active.

## Main results

* `Database.CoherentUpTo.resolve`: determining a configuration keeps the invariant.
* `Database.CoherentUpTo.applied` and `Database.CoherentUpTo.dropped`: an applied mutation puts its
  scope in doubt, and dropping configuration settles this doubt.
* `Database.CoherentUpTo.beginTransaction`, `Database.CoherentUpTo.commit` and
  `Database.CoherentUpTo.abort`: opening and ending transactions keeps the invariant.
-/

namespace DocTree

namespace Database

/-- What is cached agrees with the tree, apart from what lies at or below the collections in doubt
for a transaction; and what is recorded suffices to keep this so if a transaction is taken back. -/
structure CoherentUpTo (settings : Settings) (transaction : TransactionId) (doubt : List Path)
    (database : Database) : Prop where
  /-- What is cached for a collection that is not in doubt is what loading it gives. -/
  cached : ∀ collection entry, collection.startsWith .root →
    database.resolver.cache.get? collection = some entry → ¬collection.UnderAny doubt →
    EffectiveConfig.load settings database.store.tree collection = .ok entry.config
  /-- If taking a transaction back changes a configuration document, then the collections that
  this reaches are recorded for the transaction or in doubt for it. -/
  undoable : ∀ other log, database.store.transactions.get? other = some log →
    ∀ entry ∈ log.replaced, ∀ collection, collection.startsWith .root →
      settings.Configures entry.1 collection →
      collection.UnderAny (database.configChanges.getD other []) ∨
        (other = transaction ∧ collection.UnderAny doubt)
  /-- Something is recorded for active transactions only. -/
  recorded : ∀ other, (database.configChanges.get? other).isSome →
    database.store.status? other = some .active
  /-- Nothing is cached or recorded before the configuration root was seen to. -/
  untouched : database.resolver.rootReady = false →
    (∀ collection, database.resolver.cache.get? collection = none) ∧
      ∀ other, database.configChanges.get? other = none

/-- What is cached agrees with the tree, and nothing is in doubt. -/
def Coherent (settings : Settings) (database : Database) : Prop :=
  ∀ transaction, CoherentUpTo settings transaction [] database

/-- The configuration root was seen to, and a transaction is active. -/
def Standing (transaction : TransactionId) (database : Database) : Prop :=
  database.resolver.rootReady = true ∧ database.store.status? transaction = some .active

variable {settings : Settings} {transaction : TransactionId} {doubt : List Path}
  {database : Database}

/-! ### The record of changes -/

/-- What is recorded for a transaction after collections were recorded was recorded before, or is
one of them and was recorded for their transaction. -/
theorem mem_getD_recordChanges {collections : List Path} {other : TransactionId} {path : Path} :
    path ∈ (database.recordChanges transaction collections).configChanges.getD other [] ↔
      path ∈ database.configChanges.getD other [] ∨
        (other = transaction ∧ path ∈ collections) := by
  unfold recordChanges
  split
  next hempty =>
    rw [List.isEmpty_iff.1 hempty]
    simp
  next =>
    simp only [Table.getD, Table.get?_set]
    -- Only what is not known yet is added, so it has to be told apart whether it was.
    by_cases hother : transaction = other
    · subst hother
      simp only [if_true, Option.getD_some, List.mem_append, List.mem_filter, true_and]
      by_cases hpath : path ∈ (database.configChanges.get? transaction).getD []
      · simp [hpath]
      · simp [hpath]
    · simp [hother, Ne.symm hother]

/-- For other transactions, recording changes nothing. -/
theorem get?_recordChanges_of_ne {collections : List Path} {other : TransactionId}
    (h : other ≠ transaction) :
    (database.recordChanges transaction collections).configChanges.get? other =
      database.configChanges.get? other := by
  unfold recordChanges
  split
  · rfl
  · exact (Table.get?_set ..).trans (if_neg (Ne.symm h))

/-! ### Settling a record -/

/-- Settling a record leaves the store alone. -/
@[simp]
theorem store_closeRecord (transaction : TransactionId) (rolledBack : Bool) :
    (database.closeRecord transaction rolledBack).store = database.store := by
  unfold closeRecord
  split
  · rfl
  · cases rolledBack <;> rfl

theorem rootReady_closeRecord (transaction : TransactionId) (rolledBack : Bool) :
    (database.closeRecord transaction rolledBack).resolver.rootReady =
      database.resolver.rootReady := by
  unfold closeRecord
  split
  · rfl
  · cases rolledBack with
    | false => rfl
    | true => exact Resolver.rootReady_invalidateAll ..

/-- Settling the record of a transaction removes it, and no other. -/
theorem get?_configChanges_closeRecord {rolledBack : Bool} {other : TransactionId} :
    (database.closeRecord transaction rolledBack).configChanges.get? other =
      if transaction = other then none else database.configChanges.get? other := by
  unfold closeRecord
  split
  next hnone =>
    split
    next hother => rw [← hother, hnone]
    · rfl
  next => cases rolledBack <;> exact Table.get?_erase ..

/-- Settling the record of a transaction drops what was recorded from the cache if the transaction
was taken back, and nothing else. -/
theorem get?_cache_closeRecord {rolledBack : Bool} {collection : Path} {entry : CacheEntry} :
    (database.closeRecord transaction rolledBack).resolver.cache.get? collection = some entry ↔
      database.resolver.cache.get? collection = some entry ∧
        (rolledBack = true →
          ¬collection.UnderAny (database.configChanges.getD transaction [])) := by
  unfold closeRecord Table.getD
  cases hchanges : database.configChanges.get? transaction with
  | none => simp
  | some collections =>
    cases rolledBack with
    | false => simp
    | true =>
      simp only [if_true, true_implies, Option.getD_some]
      exact Resolver.get?_invalidateAll_eq_some_iff

/-- Settling a record leaves no pending slot behind. -/
theorem atRest_closeRecord (h : database.resolver.cache.AtRest) (transaction : TransactionId)
    (rolledBack : Bool) :
    (database.closeRecord transaction rolledBack).resolver.cache.AtRest := by
  unfold closeRecord
  split
  · exact h
  · cases rolledBack with
    | false => exact h
    | true => exact Resolver.atRest_invalidateAll h _

/-- Ending a transaction leaves no pending slot behind. -/
theorem atRest_endWith (h : database.resolver.cache.AtRest) (transaction : TransactionId)
    (result : Except StoreError Store) (rolledBack : Bool) :
    (database.endWith transaction result rolledBack).2.resolver.cache.AtRest := by
  cases result with
  | ok store =>
    have hstored : { database with store }.resolver.cache.AtRest := h
    exact atRest_closeRecord hstored transaction rolledBack
  | error e => exact atRest_closeRecord h transaction true

/-! ### The invariant -/

namespace CoherentUpTo

/-- Nothing is cached or recorded in a new database. -/
theorem initial (settings : Settings) (transaction : TransactionId) (doubt : List Path) :
    CoherentUpTo settings transaction doubt (.initial settings) where
  cached _ _ _ hcached := nomatch hcached
  undoable _ _ hlog := nomatch hlog
  recorded _ hrecorded := nomatch hrecorded
  untouched _ := ⟨fun _ => rfl, fun _ => rfl⟩

/-- The invariant speaks of the store, the resolver and the record of changes only. -/
theorem congr {other : Database} (h : CoherentUpTo settings transaction doubt database)
    (hstore : other.store = database.store) (hresolver : other.resolver = database.resolver)
    (hchanges : other.configChanges = database.configChanges) :
    CoherentUpTo settings transaction doubt other where
  cached := by
    rw [hstore, hresolver]
    exact h.cached
  undoable := by
    rw [hstore, hchanges]
    exact h.undoable
  recorded := by
    rw [hstore, hchanges]
    exact h.recorded
  untouched := by
    rw [hresolver, hchanges]
    exact h.untouched

/-- If nothing is in doubt, it does not matter for which transaction. -/
theorem of_nil {other : TransactionId} (h : CoherentUpTo settings transaction [] database) :
    CoherentUpTo settings other [] database where
  cached := h.cached
  undoable other log hlog entry hentry collection hroot hconfigures := by
    rcases h.undoable other log hlog entry hentry collection hroot hconfigures with h | h
    · exact .inl h
    · exact absurd h.2 (Path.not_underAny_nil _)
  recorded := h.recorded
  untouched := h.untouched

/-- Determining a configuration keeps the invariant. -/
theorem resolve (h : CoherentUpTo settings transaction doubt database) (collection : Path) :
    CoherentUpTo settings transaction doubt (database.resolve settings collection).2 := by
  have hresolved := @Resolver.get?_resolve settings database.resolver database.store collection
  cases hready : database.resolver.rootReady with
  | true =>
    -- The store stays as it is, and what is cached anew has just been read from it.
    have hstore : (database.resolve settings collection).2.store = database.store :=
      Resolver.store_resolve_of_ready hready
    have hstill : (database.resolve settings collection).2.resolver.rootReady = true :=
      Resolver.rootReady_resolve_of_ready hready
    refine ⟨fun other entry hroot hcached hdoubt => ?_, ?_, ?_, ?_⟩
    · rcases hresolved hcached with hbefore | ⟨hload, -⟩
      · rw [hstore]
        exact h.cached other entry hroot hbefore hdoubt
      · exact hload
    · rw [hstore]
      exact h.undoable
    · rw [hstore]
      exact h.recorded
    · intro hnot
      rw [hstill] at hnot
      cases hnot
  | false =>
    -- The store may have got a configuration root, but nothing was cached or recorded before.
    obtain ⟨hnocache, hnorecord⟩ := h.untouched hready
    refine ⟨fun other entry hroot hcached hdoubt => ?_, fun other log hlog entry hentry => ?_,
      fun other hrecorded => ?_, fun hnot => ⟨fun other => ?_, hnorecord⟩⟩
    · rcases hresolved hcached with hbefore | ⟨hload, -⟩
      · rw [hnocache] at hbefore
        cases hbefore
      · exact hload
    · have hlog' : (database.resolver.ensureRoot settings database.store).2.2.transactions.get?
          other = some log := by
        rw [← Resolver.store_resolve settings database.resolver database.store collection]
        exact hlog
      rcases Resolver.log_of_ensureRoot hlog' with hbefore | hempty
      · exact h.undoable other log hbefore entry hentry
      · rw [hempty] at hentry
        cases hentry
    · rw [show (database.resolve settings collection).2.configChanges = database.configChanges
        from rfl, hnorecord] at hrecorded
      cases hrecorded
    · cases hcached : (database.resolve settings collection).2.resolver.cache.get? other with
      | none => rfl
      | some entry =>
        rcases hresolved hcached with hbefore | ⟨-, hnow⟩
        · rw [hnocache] at hbefore
          cases hbefore
        · exact absurd (hnow.symm.trans hnot) (by decide)

/-- An applied mutation puts its scope in doubt. -/
theorem applied (hfile : settings.fileName ≠ "db")
    (h : CoherentUpTo settings transaction doubt database) {mutation : Mutation} {store : Store}
    (hstore : database.store.perform transaction mutation = .ok store) :
    CoherentUpTo settings transaction
      (settings.changeScope mutation.source mutation.destination? ++ doubt)
      { database with store } where
  cached collection entry hroot hcached hdoubt := by
    rw [Path.underAny_append, not_or] at hdoubt
    rw [← h.cached collection entry hroot hcached hdoubt.2]
    -- A document that configures a collection outside of the scope is not touched.
    refine EffectiveConfig.load_congr fun path hconfigures => ?_
    exact Store.get?_of_perform hstore fun htouches =>
      hdoubt.1 (Settings.underAny_changeScope hfile hroot hconfigures htouches)
  undoable other log hlog entry hentry collection hroot hconfigures := by
    rw [Path.underAny_append]
    rcases Store.replaced_of_perform hstore hlog hentry with ⟨old, hold, hmem⟩ | ⟨rfl, htouches⟩
    · rcases h.undoable other old hold entry hmem collection hroot hconfigures with h | h
      · exact .inl h
      · exact .inr ⟨h.1, .inr h.2⟩
    · exact .inr ⟨rfl, .inl (Settings.underAny_changeScope hfile hroot hconfigures htouches)⟩
  recorded other hrecorded := Store.active_of_perform hstore (h.recorded other hrecorded)
  untouched := h.untouched

/-- Dropping collections from the cache and recording some of them for the transaction settles the
doubt about these. -/
theorem dropped {scope gone : List Path}
    (h : CoherentUpTo settings transaction (scope ++ doubt) database)
    (hstanding : database.Standing transaction) :
    CoherentUpTo settings transaction doubt
      ((database.invalidateAll (scope ++ gone)).recordChanges transaction scope) where
  cached collection entry hroot hcached hdoubt := by
    rw [resolver_recordChanges] at hcached
    obtain ⟨hcached, hkept⟩ := Resolver.get?_invalidateAll_eq_some_iff.1 hcached
    rw [store_recordChanges]
    rw [Path.underAny_append, not_or] at hkept
    -- What is still cached lies outside of everything that was dropped.
    exact h.cached collection entry hroot hcached fun hunder =>
      (Path.underAny_append.1 hunder).elim hkept.1 hdoubt
  undoable other log hlog entry hentry collection hroot hconfigures := by
    rw [store_recordChanges] at hlog
    -- A doubt about the scope has become an entry of the record.
    rcases h.undoable other log hlog entry hentry collection hroot hconfigures with
      hbefore | ⟨rfl, hunder⟩
    · exact .inl (hbefore.mono fun path hpath => mem_getD_recordChanges.2 (.inl hpath))
    · rcases Path.underAny_append.1 hunder with hunder | hunder
      · exact .inl (hunder.mono fun path hpath => mem_getD_recordChanges.2 (.inr ⟨rfl, hpath⟩))
      · exact .inr ⟨rfl, hunder⟩
  recorded other hrecorded := by
    rw [store_recordChanges]
    by_cases hother : other = transaction
    · rw [hother]
      exact hstanding.2
    · rw [get?_recordChanges_of_ne hother] at hrecorded
      exact h.recorded other hrecorded
  untouched hnot := by
    rw [resolver_recordChanges] at hnot
    exact absurd (hnot.symm.trans
      ((Resolver.rootReady_invalidateAll ..).trans hstanding.1)) (by decide)

/-! ### Opening and ending transactions -/

/-- A transaction that was just opened remembers nothing. -/
theorem beginTransaction (h : CoherentUpTo settings transaction doubt database) :
    CoherentUpTo settings transaction doubt
      { database with store := database.store.beginTransaction.2 } where
  cached := h.cached
  undoable other log hlog entry hentry := by
    -- The number may be that of a transaction opened before; its log is empty now.
    rw [Store.beginTransaction, Table.get?_set] at hlog
    split at hlog
    · cases hlog
      cases hentry
    · exact h.undoable other log hlog entry hentry
  recorded other hrecorded := by
    have hbefore := h.recorded other hrecorded
    rw [Store.status?, Store.beginTransaction, Table.get?_set]
    split
    · rfl
    · exact hbefore
  untouched := h.untouched

/-- If a transaction has ended in the store and remembers nothing any more, and loading still gives
the same wherever the record of the transaction does not drop it, then settling the record restores
the invariant. -/
theorem closeRecord (h : CoherentUpTo settings transaction [] database) {store : Store}
    {log : TransactionLog} (hlog : log.replaced = [])
    (htransactions : store.transactions = database.store.transactions.set transaction log)
    {rolledBack : Bool}
    (hload : ∀ collection, collection.startsWith .root →
      (rolledBack = true → ¬collection.UnderAny (database.configChanges.getD transaction [])) →
      EffectiveConfig.load settings store.tree collection =
        EffectiveConfig.load settings database.store.tree collection) :
    CoherentUpTo settings transaction []
      ({ database with store }.closeRecord transaction rolledBack) := by
  -- The logs of the other transactions are as they were.
  have hothers : ∀ other, transaction ≠ other →
      store.transactions.get? other = database.store.transactions.get? other := by
    intro other hother
    rw [htransactions, Table.get?_set, if_neg hother]
  refine ⟨fun collection entry hroot hcached hdoubt => ?_,
    fun other found hfound entry hentry => ?_,
    fun other hrecorded => ?_, fun hnot => ?_⟩
  · rw [get?_cache_closeRecord] at hcached
    rw [store_closeRecord, hload collection hroot hcached.2]
    exact h.cached collection entry hroot hcached.1 hdoubt
  · rw [store_closeRecord] at hfound
    by_cases hother : transaction = other
    · -- The transaction that has ended remembers nothing.
      subst hother
      rw [htransactions, Table.get?_set, if_pos rfl] at hfound
      cases hfound
      rw [hlog] at hentry
      cases hentry
    · rw [hothers other hother] at hfound
      rw [Table.getD, get?_configChanges_closeRecord, if_neg hother]
      exact h.undoable other found hfound entry hentry
  · rw [get?_configChanges_closeRecord] at hrecorded
    split at hrecorded
    · cases hrecorded
    next hother =>
      rw [store_closeRecord, Store.status?, hothers other hother]
      exact h.recorded other hrecorded
  · rw [rootReady_closeRecord] at hnot
    obtain ⟨hnocache, hnorecord⟩ := h.untouched hnot
    refine ⟨fun collection => Option.eq_none_iff_forall_ne_some.2 fun entry hentry => ?_,
      fun other => ?_⟩
    · have hbefore := (get?_cache_closeRecord.1 hentry).1
      rw [show ({ database with store } : Database).resolver = database.resolver from rfl,
        hnocache] at hbefore
      cases hbefore
    · rw [get?_configChanges_closeRecord]
      split
      · rfl
      · exact hnorecord other

/-- If a transaction is not active, then nothing is recorded for it that would have to be
settled. -/
theorem closeRecord_eq_self (h : CoherentUpTo settings transaction [] database)
    {other : TransactionId} {error : StoreError}
    (hinactive : database.store.requireActive other = .error error) (rolledBack : Bool) :
    database.closeRecord other rolledBack = database := by
  unfold Database.closeRecord
  cases hchanges : database.configChanges.get? other with
  | none => rfl
  | some collections =>
    obtain ⟨log, hlog⟩ :=
      Store.status?_eq_active_iff.1 (h.recorded other (by rw [hchanges]; rfl))
    rw [hinactive] at hlog
    cases hlog

theorem commit (h : CoherentUpTo settings transaction [] database) :
    CoherentUpTo settings transaction [] (database.commit transaction).2 := by
  cases hactive : database.store.requireActive transaction with
  | error e =>
    rw [Database.commit, Store.commit, hactive]
    show CoherentUpTo settings transaction [] (database.closeRecord transaction true)
    rw [h.closeRecord_eq_self hactive]
    exact h
  | ok log =>
    rw [Database.commit, Store.commit_eq_ok hactive]
    exact h.closeRecord rfl rfl fun _ _ _ => rfl

theorem abort (h : CoherentUpTo settings transaction [] database) :
    CoherentUpTo settings transaction [] (database.abort transaction).2 := by
  cases hactive : database.store.requireActive transaction with
  | error e =>
    rw [Database.abort, Store.abort, hactive]
    show CoherentUpTo settings transaction [] (database.closeRecord transaction true)
    rw [h.closeRecord_eq_self hactive]
    exact h
  | ok log =>
    rw [Database.abort, Store.abort_eq_ok hactive]
    refine h.closeRecord rfl rfl fun collection hroot hkept => ?_
    have hlog := (Store.requireActive_eq_ok_iff.1 hactive).1
    -- No document that configures the collection was replaced.
    refine EffectiveConfig.load_congr fun path hconfigures => ?_
    apply Tree.get?_undo_of_notMem
    intro hmem
    obtain ⟨entry, hentry, rfl⟩ := List.mem_map.1 hmem
    rcases h.undoable transaction log hlog entry hentry collection hroot hconfigures with
      hunder | ⟨-, hunder⟩
    · exact hkept rfl hunder
    · exact Path.not_underAny_nil _ hunder

end CoherentUpTo

end Database

end DocTree
