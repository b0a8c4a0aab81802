import DocTree.Config.Effective
import DocTree.Path.Map

/-!
# The configuration cache

Effective configurations by collection. A configuration that is not cached is resolved by the
first caller that asks for it; the slot of its path is pending meanwhile. An invalidation removes
pending slots too, and a caller publishes what it resolved only if its own slot is still in place,
so that nothing is cached that was resolved from configuration as it was before an invalidation.

Every function here is one step that no other caller can interrupt, `ConfigCache.fetch`
apart: between its two steps the resolution runs, and may use the cache itself.

## Main definitions

* `CacheEntry`: a configuration together with the flight that resolved it.
* `ConfigCache`: the slots.
* `ConfigCache.request` and `ConfigCache.finish`: the two steps of a resolution.
* `ConfigCache.invalidate` and `ConfigCache.clear`: removal of slots.
-/

namespace DocTree

/-- The number of a resolution. No two resolutions of a cache have the same number. -/
abbrev Flight := Nat

/-- A configuration and the resolution that it came from. Two callers share one configuration if
they have entries of the same resolution. -/
structure CacheEntry where
  /-- The resolution. -/
  flight : Flight
  /-- The configuration. -/
  config : EffectiveConfig
  deriving DecidableEq, Repr

/-- What the cache holds for a path. -/
inductive Slot where
  /-- A configuration. -/
  | ready (entry : CacheEntry)
  /-- The promise of a resolution that is under way. -/
  | pending (flight : Flight)
  deriving DecidableEq, Repr

/-- Effective configurations by collection. -/
structure ConfigCache where
  /-- The slots by collection. -/
  slots : PathMap Slot
  /-- The number that the next resolution gets. -/
  nextFlight : Flight
  deriving DecidableEq

/-- What a caller learns when it asks for a configuration. -/
inductive CacheAnswer where
  /-- The configuration is there. -/
  | hit (entry : CacheEntry)
  /-- Another resolution is under way. -/
  | wait (flight : Flight)
  /-- The caller has to resolve it. -/
  | lead (flight : Flight)
  deriving DecidableEq, Repr

namespace ConfigCache

/-- The cache without slots. -/
def empty : ConfigCache :=
  ⟨.empty, 0⟩

instance : Inhabited ConfigCache := ⟨empty⟩

/-- The configuration cached for a path. -/
def get? (cache : ConfigCache) (path : Path) : Option CacheEntry :=
  match cache.slots.get? path with
  | some (.ready entry) => some entry
  | _ => none

/-- Starts a resolution under the next number. -/
def start (cache : ConfigCache) : Flight × ConfigCache :=
  (cache.nextFlight, { cache with nextFlight := cache.nextFlight + 1 })

/-- Looks a path up. If there is no slot for it, the caller is given a pending one. -/
def request (cache : ConfigCache) (path : Path) : CacheAnswer × ConfigCache :=
  match cache.slots.get? path with
  | some (.ready entry) => (.hit entry, cache)
  | some (.pending flight) => (.wait flight, cache)
  | none =>
    let (flight, cache) := cache.start
    (.lead flight, { cache with slots := cache.slots.insert path (.pending flight) })

/-- Ends a resolution. If the slot is still the one that the resolution was given, a configuration
is published in it, and a failure removes it. The first component is what was published. -/
def finish (cache : ConfigCache) (path : Path) (flight : Flight)
    (result : Except ConfigError EffectiveConfig) : Option CacheEntry × ConfigCache :=
  if cache.slots.get? path = some (.pending flight) then
    match result with
    | .ok config =>
      (some ⟨flight, config⟩,
        { cache with slots := cache.slots.insert path (.ready ⟨flight, config⟩) })
    | .error _ => (none, { cache with slots := cache.slots.erase path })
  else (none, cache)

/-- The cached configuration of a path, or the result of resolving it. The resolution may use the
cache, and a state `σ` besides it. A caller that comes across a pending slot while nobody else runs
would wait for itself without end; so that the function is total, it resolves for itself here, and
publishes nothing. This concerns no cache without pending slots, and so no run of a database. -/
def fetch {σ : Type} (path : Path)
    (resolve : ConfigCache × σ → Except ConfigError EffectiveConfig × (ConfigCache × σ)) :
    ConfigCache × σ → Except ConfigError CacheEntry × (ConfigCache × σ)
  | (cache, state) =>
    match cache.request path with
    | (.hit entry, cache) => (.ok entry, (cache, state))
    -- The resolution may invalidate the slot that it was given; then `finish` publishes nothing.
    | (.lead flight, cache) =>
      let (result, (cache, state)) := resolve (cache, state)
      (result.map (⟨flight, ·⟩), ((cache.finish path flight result).2, state))
    | (.wait _, cache) =>
      let (flight, cache) := cache.start
      let (result, (cache, state)) := resolve (cache, state)
      (result.map (⟨flight, ·⟩), (cache, state))

/-- Removes the slots at and below a path, pending ones included; the first component counts
them. -/
def invalidate (cache : ConfigCache) (path : Path) : Nat × ConfigCache :=
  let doomed := (cache.slots.subtree path).map Prod.fst
  (doomed.length, { cache with slots := cache.slots.eraseAll doomed })

/-- Removes every slot. -/
def clear (cache : ConfigCache) : ConfigCache :=
  { cache with slots := .empty }

/-- Whether a slot holds a configuration. -/
def isReady : Slot → Bool
  | .ready _ => true
  | .pending _ => false

/-- The number of cached configurations. -/
def size (cache : ConfigCache) : Nat :=
  cache.slots.values.countP isReady

end ConfigCache

end DocTree
