import DocTree.Proofs.Config.Scope

/-!
# What resolving and invalidating do to the cache

Specifications of the operations on cached configurations: an invalidation forgets what lies at and
below its paths and nothing else; a resolution adds what it has just read from the tree, and leaves
the store alone once the configuration root was seen to.

## Main definitions

* `ConfigCache.AtRest`: no resolution is under way.
* `Resolver.EnsuresRoot`: the ways in which seeing to the configuration root can go.

## Main results

* `ConfigCache.get?_slots_finish_of_pending` and `ConfigCache.finish_of_superseded`: what becomes of
  a slot when the resolution that it was given to ends.
* `ConfigCache.fetch_of_ready` and `ConfigCache.fetch_of_free`: what asking for a configuration
  comes down to.
* `ConfigCache.get?_fetch`: what is cached after a resolution was cached before or is its result.
* `ConfigCache.AtRest.fetch` and `ConfigCache.AtRest.get?_fetch`: in a cache at rest, it is its
  result if there is one, and no slot is pending afterwards.
* `Resolver.get?_invalidateAll_eq_some_iff`: what is cached after an invalidation.
* `Resolver.ensuresRoot_ensureRoot`: seeing to the configuration root goes one of these ways.
* `Resolver.ensureRoot_of_ready` and `Resolver.log_of_ensureRoot`: the creation of the
  configuration root happens once, and leaves nothing that could be taken back.
* `Resolver.get?_resolve`: what is cached after a resolution was cached before or agrees with the
  tree.
* `Resolver.get?_resolve_of_ok` and `Resolver.resolve_of_cached`: what has been resolved is found
  again.
-/

namespace DocTree

namespace ConfigCache

variable {cache : ConfigCache} {path other : Path} {flight : Flight} {entry : CacheEntry}
  {result : Except ConfigError EffectiveConfig} {σ : Type}

/-- A slot is cached exactly if it is ready. -/
theorem get?_eq_some_iff :
    cache.get? path = some entry ↔ cache.slots.get? path = some (.ready entry) := by
  unfold get?
  split
  next found h => simp [h]
  next hno =>
    constructor
    · intro h
      cases h
    · intro h
      exact absurd h (hno entry)

/-! ### The two steps of a resolution -/

/-- The cache in which the next resolution has a slot. -/
def lead (cache : ConfigCache) (path : Path) : ConfigCache :=
  ⟨cache.slots.insert path (.pending cache.nextFlight), cache.nextFlight + 1⟩

theorem get?_slots_lead (cache : ConfigCache) (path other : Path) :
    (cache.lead path).slots.get? other =
      if path = other then some (.pending cache.nextFlight) else cache.slots.get? other :=
  PathMap.get?_insert ..

theorem nextFlight_finish (cache : ConfigCache) (path : Path) (flight : Flight)
    (result : Except ConfigError EffectiveConfig) :
    (cache.finish path flight result).2.nextFlight = cache.nextFlight := by
  unfold finish
  split
  · cases result <;> rfl
  · rfl

/-- The end of a resolution does not concern the slots of other paths. -/
theorem get?_slots_finish_of_ne (h : path ≠ other) :
    (cache.finish path flight result).2.slots.get? other = cache.slots.get? other := by
  unfold finish
  split
  · cases result with
    | ok config => exact (PathMap.get?_insert ..).trans (if_neg h)
    | error e => exact (PathMap.get?_erase ..).trans (if_neg h)
  · rfl

/-- A resolution whose slot is in place ends with its own configuration in it, or without a slot. -/
theorem get?_slots_finish_of_pending (h : cache.slots.get? path = some (.pending flight)) :
    (cache.finish path flight result).2.slots.get? path =
      result.toOption.map fun config => .ready ⟨flight, config⟩ := by
  unfold finish
  rw [if_pos h]
  cases result with
  | ok config => exact (PathMap.get?_insert ..).trans (if_pos rfl)
  | error e => exact (PathMap.get?_erase ..).trans (if_pos rfl)

/-- A resolution whose slot is not in place changes nothing when it ends. -/
theorem finish_of_superseded (h : cache.slots.get? path ≠ some (.pending flight)) :
    (cache.finish path flight result).2 = cache := by
  unfold finish
  rw [if_neg h]

/-! ### Whole resolutions -/

/-- Who asks for a configuration that is cached gets it, and nothing happens. -/
theorem fetch_of_ready (h : cache.slots.get? path = some (.ready entry))
    (resolve : ConfigCache × σ → Except ConfigError EffectiveConfig × (ConfigCache × σ))
    (state : σ) : fetch path resolve (cache, state) = (.ok entry, (cache, state)) := by
  simp only [fetch, request, h]

/-- Who asks for a configuration that has no slot is given one, and calls the function once. -/
theorem fetch_of_free (h : cache.slots.get? path = none)
    (resolve : ConfigCache × σ → Except ConfigError EffectiveConfig × (ConfigCache × σ))
    (state : σ) :
    fetch path resolve (cache, state) =
      let (result, (resolved, state)) := resolve (cache.lead path, state)
      (result.map (⟨cache.nextFlight, ·⟩),
        ((resolved.finish path cache.nextFlight result).2, state)) := by
  simp only [fetch, request, h]
  rfl

/-- A resolution that does not use the cache ends with what it has come up with in its own slot, and
leaves the other slots as they were. -/
theorem get?_slots_fetch_of_free (h : cache.slots.get? path = none) (state : σ) (other : Path) :
    (fetch path (fun state => (result, state)) (cache, state)).2.1.slots.get? other =
      if path = other then result.toOption.map fun config => .ready ⟨cache.nextFlight, config⟩
      else cache.slots.get? other := by
  rw [fetch_of_free h]
  by_cases hsame : path = other
  · -- The caller is given a pending slot, and finds it in place when it has resolved.
    subst hsame
    have hown : (cache.lead path).slots.get? path = some (.pending cache.nextFlight) := by
      rw [get?_slots_lead, if_pos rfl]
    rw [if_pos rfl]
    exact get?_slots_finish_of_pending hown
  · rw [if_neg hsame]
    refine (get?_slots_finish_of_ne hsame).trans ?_
    rw [get?_slots_lead, if_neg hsame]

/-- What is cached after a resolution that does not use the cache was cached before, or is the
configuration that the resolution came up with. -/
theorem get?_fetch {state : σ}
    (h : (fetch path (fun state => (result, state)) (cache, state)).2.1.get? other = some entry) :
    cache.get? other = some entry ∨ (other = path ∧ result = .ok entry.config) := by
  rw [get?_eq_some_iff] at h ⊢
  cases hslot : cache.slots.get? path with
  | none =>
    rw [get?_slots_fetch_of_free hslot] at h
    split at h
    next hsame =>
      cases result with
      | ok config =>
        cases h
        exact .inr ⟨hsame.symm, rfl⟩
      | error e => cases h
    · exact .inl h
  | some slot =>
    -- The configuration is there already, or the caller resolves it for itself.
    cases slot with
    | ready hit =>
      rw [fetch_of_ready hslot] at h
      exact .inl h
    | pending flight =>
      simp only [fetch, request, hslot, start] at h
      exact .inl h

/-! ### Caches at rest -/

/-- No resolution is under way. -/
def AtRest (cache : ConfigCache) : Prop :=
  ∀ path flight, cache.slots.get? path ≠ some (.pending flight)

namespace AtRest

theorem empty : empty.AtRest :=
  nofun

/-- Nobody who asks a cache at rest has to wait. -/
theorem request_ne_wait (h : cache.AtRest) (path : Path) (flight : Flight) :
    (cache.request path).1 ≠ .wait flight := by
  unfold request
  split
  · nofun
  next hslot => exact absurd hslot (h path _)
  · nofun

/-- A resolution that does not use the cache leaves no pending slot behind. -/
theorem fetch (h : cache.AtRest) (path : Path) (result : Except ConfigError EffectiveConfig)
    (state : σ) : (fetch path (fun state => (result, state)) (cache, state)).2.1.AtRest := by
  cases hslot : cache.slots.get? path with
  | none =>
    -- The slot that was taken is ready now, or free again if the resolution has failed.
    intro other flight hpending
    rw [get?_slots_fetch_of_free hslot] at hpending
    split at hpending
    · cases result with
      | ok config => cases hpending
      | error e => cases hpending
    · exact h other flight hpending
  | some slot =>
    cases slot with
    | ready hit =>
      rw [fetch_of_ready hslot]
      exact h
    | pending flight => exact absurd hslot (h path flight)

/-- What has been asked for is cached from then on. -/
theorem get?_fetch (h : cache.AtRest) {state : σ}
    (hok : (ConfigCache.fetch path (fun state => (result, state)) (cache, state)).1 = .ok entry) :
    (ConfigCache.fetch path (fun state => (result, state)) (cache, state)).2.1.get? path =
      some entry := by
  rw [get?_eq_some_iff]
  cases hslot : cache.slots.get? path with
  | none =>
    rw [get?_slots_fetch_of_free hslot, if_pos rfl]
    rw [fetch_of_free hslot] at hok
    cases result with
    | ok config =>
      cases hok
      rfl
    | error e => cases hok
  | some slot =>
    cases slot with
    | ready hit =>
      rw [fetch_of_ready hslot] at hok ⊢
      cases hok
      exact hslot
    | pending flight => exact absurd hslot (h path flight)

end AtRest

/-! ### Removal of slots -/

/-- An invalidation removes the slots at and below its path, and no others. -/
theorem get?_slots_invalidate (cache : ConfigCache) (path other : Path) :
    (cache.invalidate path).2.slots.get? other =
      if other.startsWith path then none else cache.slots.get? other := by
  simp only [invalidate, PathMap.get?_eraseAll, PathMap.mem_keys_subtree_iff, PathMap.contains]
  cases hslot : cache.slots.get? other with
  | none => simp
  | some slot => simp

/-- An invalidation forgets what lies at and below its path, and nothing else. -/
theorem get?_invalidate_eq_some_iff :
    (cache.invalidate path).2.get? other = some entry ↔
      cache.get? other = some entry ∧ ¬other.startsWith path := by
  rw [get?_eq_some_iff, get?_eq_some_iff, get?_slots_invalidate]
  by_cases hbelow : other.startsWith path <;> simp [hbelow]

/-- An invalidation leaves no pending slot behind that was not there before. -/
theorem AtRest.invalidate (h : cache.AtRest) (path : Path) : (cache.invalidate path).2.AtRest := by
  intro other flight hpending
  rw [get?_slots_invalidate] at hpending
  split at hpending
  · cases hpending
  · exact h other flight hpending

end ConfigCache

namespace Resolver

/-! ### Invalidation -/

/-- An invalidation of several paths forgets what lies at and below them, and nothing else. -/
theorem get?_invalidateAll_eq_some_iff {resolver : Resolver} {paths : List Path} {other : Path}
    {entry : CacheEntry} :
    (resolver.invalidateAll paths).2.cache.get? other = some entry ↔
      resolver.cache.get? other = some entry ∧ ¬other.UnderAny paths := by
  induction paths generalizing resolver with
  | nil => simp [invalidateAll]
  | cons first rest ih =>
    have hstep : (resolver.invalidateAll (first :: rest)).2 =
        ((resolver.invalidate first).2.invalidateAll rest).2 := rfl
    have hfirst : (resolver.invalidate first).2.cache = (resolver.cache.invalidate first).2 := rfl
    rw [hstep, ih, hfirst, ConfigCache.get?_invalidate_eq_some_iff, and_assoc]
    simp [Path.UnderAny]

/-- An invalidation does not change whether the configuration root was seen to. -/
theorem rootReady_invalidateAll (resolver : Resolver) (paths : List Path) :
    (resolver.invalidateAll paths).2.rootReady = resolver.rootReady := by
  induction paths generalizing resolver with
  | nil => rfl
  | cons first rest ih => exact ih (resolver.invalidate first).2

theorem atRest_invalidateAll {resolver : Resolver} (h : resolver.cache.AtRest)
    (paths : List Path) : (resolver.invalidateAll paths).2.cache.AtRest := by
  induction paths generalizing resolver with
  | nil => exact h
  | cons first rest ih => exact ih (h.invalidate first)

/-! ### The configuration root -/

/-- Creating collections leaves the transaction active and the logs of all others alone. -/
theorem createCollections_spec {transaction : TransactionId} (paths : List Path) {store : Store}
    {log : TransactionLog} (h : store.requireActive transaction = .ok log) :
    (∃ log, (createCollections transaction store paths).2.requireActive transaction = .ok log) ∧
      ∀ other, other ≠ transaction →
        (createCollections transaction store paths).2.transactions.get? other =
          store.transactions.get? other := by
  -- The first collection that cannot be created ends the work, so the case stands still.
  induction paths generalizing store log with
  | nil => exact ⟨⟨log, h⟩, fun _ _ => rfl⟩
  | cons first rest ih =>
    rw [createCollections]
    split
    next after hperform =>
      obtain ⟨next, hnext⟩ := Store.status?_eq_active_iff.1 (Store.status?_of_perform hperform)
      refine ⟨(ih hnext).1, fun other hother => ?_⟩
      rw [(ih hnext).2 other hother]
      obtain ⟨old, writes, -, -, rfl⟩ := Store.perform_eq_ok_iff.1 hperform
      rw [Store.applied, Table.get?_set, if_neg (Ne.symm hother)]
    · exact ⟨⟨log, h⟩, fun _ _ => rfl⟩

theorem journal_createCollections (transaction : TransactionId) (store : Store)
    (paths : List Path) :
    ∃ created : List Path, (createCollections transaction store paths).2.journal =
      store.journal ++ created.map fun path => ⟨transaction, .createCollection path⟩ := by
  induction paths generalizing store with
  | nil => exact ⟨[], (List.append_nil _).symm⟩
  | cons first rest ih =>
    rw [createCollections]
    split
    next after hperform =>
      obtain ⟨created, hcreated⟩ := ih after
      refine ⟨first :: created, ?_⟩
      rw [hcreated, Store.journal_of_perform hperform]
      simp
    · exact ⟨[], (List.append_nil _).symm⟩

/-- What applying mutations in a transaction keeps is kept by creating collections in it. -/
theorem createCollections_invariant {transaction : TransactionId} {P : Store → Prop}
    (hP : ∀ store mutation after, P store → store.perform transaction mutation = .ok after →
      P after) (paths : List Path) {store : Store} (h : P store) :
    P (createCollections transaction store paths).2 := by
  induction paths generalizing store with
  | nil => exact h
  | cons first rest ih =>
    rw [createCollections]
    split
    next after hperform => exact ih (hP _ _ _ h hperform)
    · exact h

/-- The levels of the configuration root that are not there. -/
def missingLevels (settings : Settings) (store : Store) : List Path :=
  settings.configRoot.ancestors.filter fun path => !store.contains path

/-- The ways in which seeing to the configuration root can go. -/
inductive EnsuresRoot (settings : Settings) (resolver : Resolver) (store : Store) :
    Except ConfigError Unit × Resolver × Store → Prop where
  /-- It was seen to before. -/
  | ready (hready : resolver.rootReady = true) :
      EnsuresRoot settings resolver store (.ok (), resolver, store)
  /-- Nothing is missing. -/
  | present (hnew : resolver.rootReady = false) (hmissing : missingLevels settings store = []) :
      EnsuresRoot settings resolver store (.ok (), { resolver with rootReady := true }, store)
  /-- What is missing is created, in a transaction that is committed. -/
  | created {after : Store} {log : TransactionLog} (hnew : resolver.rootReady = false)
      (hmissing : missingLevels settings store ≠ [])
      (hcreated : createCollections store.beginTransaction.1 store.beginTransaction.2
        (missingLevels settings store) = (.ok (), after))
      (hlog : after.requireActive store.beginTransaction.1 = .ok log) :
      EnsuresRoot settings resolver store (.ok (), { resolver with rootReady := true },
        { after with
          transactions := after.transactions.set store.beginTransaction.1 ⟨.committed, []⟩ })
  /-- Something that is missing cannot be created, and the transaction is aborted. -/
  | refused {after : Store} {log : TransactionLog} {error : StoreError}
      (hnew : resolver.rootReady = false) (hmissing : missingLevels settings store ≠ [])
      (hrefused : createCollections store.beginTransaction.1 store.beginTransaction.2
        (missingLevels settings store) = (.error error, after))
      (hlog : after.requireActive store.beginTransaction.1 = .ok log) :
      EnsuresRoot settings resolver store (.error (.storage error), resolver,
        { after with
          tree := after.tree.undo log.replaced
          transactions := after.transactions.set store.beginTransaction.1 ⟨.aborted, []⟩ })

/-- Seeing to the configuration root goes one of these ways. -/
theorem ensuresRoot_ensureRoot (settings : Settings) (resolver : Resolver) (store : Store) :
    EnsuresRoot settings resolver store (resolver.ensureRoot settings store) := by
  -- Creating collections does not end the transaction, so it can be ended afterwards.
  obtain ⟨log, hlog⟩ := (createCollections_spec (missingLevels settings store)
    store.requireActive_beginTransaction).1
  unfold ensureRoot
  split
  next hready => exact .ready hready
  next hnew =>
    rw [Bool.not_eq_true] at hnew
    dsimp only
    split
    next hmissing => exact .present hnew (List.isEmpty_iff.1 hmissing)
    next hmissing =>
      rw [List.isEmpty_iff] at hmissing
      split
      next after hcreated =>
        rw [missingLevels, hcreated] at hlog
        rw [Store.commit_eq_ok hlog]
        exact .created hnew hmissing hcreated hlog
      next error after hrefused =>
        rw [missingLevels, hrefused] at hlog
        rw [Store.abort_eq_ok hlog]
        exact .refused hnew hmissing hrefused hlog

/-- Once the configuration root was seen to, nothing more is done about it. -/
theorem ensureRoot_of_ready {settings : Settings} {resolver : Resolver} {store : Store}
    (h : resolver.rootReady = true) :
    resolver.ensureRoot settings store = (.ok (), resolver, store) := by
  rw [ensureRoot, if_pos h]

/-- Seeing to the configuration root leaves the cache alone. -/
theorem cache_ensureRoot (settings : Settings) (resolver : Resolver) (store : Store) :
    (resolver.ensureRoot settings store).2.1.cache = resolver.cache := by
  have hensures := ensuresRoot_ensureRoot settings resolver store
  generalize resolver.ensureRoot settings store = ensured at hensures ⊢
  cases hensures <;> rfl

/-- If the configuration root could be seen to, this is remembered. -/
theorem rootReady_of_ensureRoot {settings : Settings} {resolver : Resolver} {store : Store}
    (h : (resolver.ensureRoot settings store).1 = .ok ()) :
    (resolver.ensureRoot settings store).2.1.rootReady = true := by
  have hensures := ensuresRoot_ensureRoot settings resolver store
  generalize resolver.ensureRoot settings store = ensured at h hensures ⊢
  cases hensures with
  | ready hready => exact hready
  | present => rfl
  | created => rfl
  | refused => cases h

/-- Every log after the configuration root was seen to was there before, or holds nothing that
could be taken back. -/
theorem log_of_ensureRoot {settings : Settings} {resolver : Resolver} {store : Store}
    {transaction : TransactionId} {log : TransactionLog}
    (h : (resolver.ensureRoot settings store).2.2.transactions.get? transaction = some log) :
    store.transactions.get? transaction = some log ∨ log.replaced = [] := by
  have hothers := (createCollections_spec (missingLevels settings store)
    store.requireActive_beginTransaction).2
  -- Whether the transaction is committed or aborted, it remembers nothing afterwards.
  have hended : ∀ status, ((createCollections store.beginTransaction.1 store.beginTransaction.2
        (missingLevels settings store)).2.transactions.set store.beginTransaction.1
          ⟨status, []⟩).get? transaction = some log →
      store.transactions.get? transaction = some log ∨ log.replaced = [] := by
    intro status hlog
    rw [Table.get?_set] at hlog
    split at hlog
    · cases hlog
      exact .inr rfl
    next hne =>
      have hbegun : store.beginTransaction.2.transactions.get? transaction =
          store.transactions.get? transaction := (Table.get?_set ..).trans (if_neg hne)
      rw [hothers _ (Ne.symm hne), hbegun] at hlog
      exact .inl hlog
  have hensures := ensuresRoot_ensureRoot settings resolver store
  generalize resolver.ensureRoot settings store = ensured at h hensures
  cases hensures with
  | ready => exact .inl h
  | present => exact .inl h
  | created _ _ hcreated =>
    rw [hcreated] at hended
    exact hended .committed h
  | refused _ _ hrefused =>
    rw [hrefused] at hended
    exact hended .aborted h

/-- Seeing to the configuration root adds nothing but the creation of collections to the
journal. -/
theorem journal_ensureRoot (settings : Settings) (resolver : Resolver) (store : Store) :
    ∃ created : List Path, (resolver.ensureRoot settings store).2.2.journal =
      store.journal ++ created.map fun path =>
        ⟨store.beginTransaction.1, .createCollection path⟩ := by
  obtain ⟨created, hcreated⟩ := journal_createCollections store.beginTransaction.1
    store.beginTransaction.2 (missingLevels settings store)
  have hensures := ensuresRoot_ensureRoot settings resolver store
  generalize resolver.ensureRoot settings store = ensured at hensures ⊢
  cases hensures with
  | ready => exact ⟨[], (List.append_nil _).symm⟩
  | present => exact ⟨[], (List.append_nil _).symm⟩
  | created _ _ hafter =>
    rw [hafter] at hcreated
    exact ⟨created, hcreated⟩
  | refused _ _ hafter =>
    rw [hafter] at hcreated
    exact ⟨created, hcreated⟩

/-! ### Resolving -/

/-- Once the configuration root was seen to, resolving leaves the store alone. -/
theorem store_resolve_of_ready {settings : Settings} {resolver : Resolver} {store : Store}
    {collection : Path} (h : resolver.rootReady = true) :
    (resolver.resolve settings store collection).2.2 = store := by
  rw [resolve, ensureRoot_of_ready h]

theorem rootReady_resolve_of_ready {settings : Settings} {resolver : Resolver} {store : Store}
    {collection : Path} (h : resolver.rootReady = true) :
    (resolver.resolve settings store collection).2.1.rootReady = true := by
  rw [resolve, ensureRoot_of_ready h]
  exact h

/-- If a configuration could be determined, the configuration root was seen to. -/
theorem rootReady_of_resolve_ok {settings : Settings} {resolver : Resolver} {store : Store}
    {collection : Path} {entry : CacheEntry}
    (h : (resolver.resolve settings store collection).1 = .ok entry) :
    (resolver.resolve settings store collection).2.1.rootReady = true := by
  have hready := @rootReady_of_ensureRoot settings resolver store
  unfold resolve at h ⊢
  generalize resolver.ensureRoot settings store = ensured at h hready ⊢
  obtain ⟨result, resolver, store⟩ := ensured
  cases result with
  | error e => cases h
  | ok _ => exact hready rfl

/-- Resolving leaves the store as the creation of the configuration root does. -/
theorem store_resolve (settings : Settings) (resolver : Resolver) (store : Store)
    (collection : Path) :
    (resolver.resolve settings store collection).2.2 =
      (resolver.ensureRoot settings store).2.2 := by
  unfold resolve
  generalize resolver.ensureRoot settings store = ensured
  obtain ⟨result, resolver, store⟩ := ensured
  cases result <;> rfl

/-- What is cached after a resolution was cached before, or was just read from the tree; and if it
was just read, the configuration root was seen to. -/
theorem get?_resolve {settings : Settings} {resolver : Resolver} {store : Store}
    {collection other : Path} {entry : CacheEntry}
    (h : (resolver.resolve settings store collection).2.1.cache.get? other = some entry) :
    resolver.cache.get? other = some entry ∨
      (EffectiveConfig.load settings (resolver.resolve settings store collection).2.2.tree other =
          .ok entry.config ∧
        (resolver.resolve settings store collection).2.1.rootReady = true) := by
  -- Seeing to the root adds nothing to the cache; only the reading that follows does.
  have hcache := cache_ensureRoot settings resolver store
  have hready := @rootReady_of_ensureRoot settings resolver store
  rw [← hcache]
  unfold resolve at h ⊢
  generalize resolver.ensureRoot settings store = ensured at h hready ⊢
  obtain ⟨result, resolver, store⟩ := ensured
  cases result with
  | error e => exact .inl h
  | ok _ =>
    rcases ConfigCache.get?_fetch h with h | ⟨rfl, h⟩
    · exact .inl h
    · exact .inr ⟨h, hready rfl⟩

/-- Resolving leaves no pending slot behind. -/
theorem atRest_resolve {settings : Settings} {resolver : Resolver} {store : Store}
    (h : resolver.cache.AtRest) (collection : Path) :
    (resolver.resolve settings store collection).2.1.cache.AtRest := by
  -- Seeing to the configuration root has left the cache alone.
  rw [← cache_ensureRoot settings resolver store] at h
  unfold resolve
  generalize resolver.ensureRoot settings store = ensured at h ⊢
  obtain ⟨result, resolver, store⟩ := ensured
  cases result with
  | error e => exact h
  | ok _ =>
    have hfetched := h.fetch collection (EffectiveConfig.load settings store.tree collection) ()
    exact hfetched

/-- What has been resolved is cached from then on, if no other resolution is under way. -/
theorem get?_resolve_of_ok {settings : Settings} {resolver : Resolver} {store : Store}
    {collection : Path} {entry : CacheEntry} (h : resolver.cache.AtRest)
    (hok : (resolver.resolve settings store collection).1 = .ok entry) :
    (resolver.resolve settings store collection).2.1.cache.get? collection = some entry := by
  rw [← cache_ensureRoot settings resolver store] at h
  unfold resolve at hok ⊢
  generalize resolver.ensureRoot settings store = ensured at h hok ⊢
  obtain ⟨result, resolver, store⟩ := ensured
  cases result with
  | error e => cases hok
  | ok _ => exact h.get?_fetch hok

/-- Once the configuration root was seen to, what is cached is not resolved again, whatever has
become of the store. -/
theorem resolve_of_cached {settings : Settings} {resolver : Resolver} {collection : Path}
    {entry : CacheEntry} (hready : resolver.rootReady = true)
    (hcached : resolver.cache.get? collection = some entry) (store : Store) :
    resolver.resolve settings store collection = (.ok entry, resolver, store) := by
  rw [resolve, ensureRoot_of_ready hready]
  dsimp only
  rw [ConfigCache.fetch_of_ready (ConfigCache.get?_eq_some_iff.1 hcached)]

end Resolver

end DocTree
