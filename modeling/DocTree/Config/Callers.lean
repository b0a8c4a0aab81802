import DocTree.Config.Cache

/-!
# Concurrent callers of the configuration cache

Any number of callers ask one cache for the configuration of a path each. Their steps, and
invalidations from elsewhere, happen one at a time but in any order. A caller that finds a pending
slot waits until the resolution it waits for has announced its outcome; if nothing was published,
it starts over.

## Main definitions

* `Caller` and `CallerStage`: a caller and how far it is.
* `Gathering`: the cache, the callers, and the outcomes announced so far.
* `Gathering.step`: the effect of one step of a caller, an invalidation or a clearing.
* `Gathering.race`: callers that take turns until all of them have returned.
-/

namespace DocTree

/-- How far a caller is. -/
inductive CallerStage where
  /-- It is about to look its path up. -/
  | looking
  /-- It resolves under the given number. -/
  | resolving (flight : Flight)
  /-- It has ended its resolution and is about to announce what was published. -/
  | announcing (flight : Flight) (published : Option CacheEntry)
      (result : Except ConfigError CacheEntry)
  /-- It waits for the outcome of another resolution. -/
  | waiting (flight : Flight)
  /-- It has returned. -/
  | returned (result : Except ConfigError CacheEntry)

/-- A caller that asks for the configuration of a path. -/
structure Caller where
  /-- The path. -/
  path : Path
  /-- How far the caller is. -/
  stage : CallerStage

/-- A cache and its callers. -/
structure Gathering where
  /-- The cache. -/
  cache : ConfigCache
  /-- The callers. -/
  callers : List Caller
  /-- What each resolution that has announced its outcome published. -/
  outcomes : Table Flight (Option CacheEntry)

/-- Something that happens to a cache or one of its callers. -/
inductive CacheAction where
  /-- A caller takes its next step; if it resolves, its resolution ends with the given result. -/
  | advance (caller : Nat) (result : Except ConfigError EffectiveConfig)
  /-- The slots at and below a path are removed. -/
  | invalidate (path : Path)
  /-- All slots are removed. -/
  | clear

namespace Gathering

/-- A cache that callers are about to ask for the given paths. -/
def initial (cache : ConfigCache) (paths : List Path) : Gathering where
  cache
  callers := paths.map (⟨·, .looking⟩)
  outcomes := .empty

/-- Replaces the stage of a caller. -/
def setStage (g : Gathering) (index : Nat) (stage : CallerStage) : Gathering :=
  { g with callers := g.callers.modify index fun caller => { caller with stage } }

/-- The next step of a caller. -/
def advance (g : Gathering) (index : Nat) (caller : Caller)
    (result : Except ConfigError EffectiveConfig) : Gathering :=
  match caller.stage with
  | .looking =>
    match g.cache.request caller.path with
    | (.hit entry, cache) => { g with cache }.setStage index (.returned (.ok entry))
    | (.wait flight, cache) => { g with cache }.setStage index (.waiting flight)
    | (.lead flight, cache) => { g with cache }.setStage index (.resolving flight)
  | .resolving flight =>
    let (published, cache) := g.cache.finish caller.path flight result
    { g with cache }.setStage index (.announcing flight published (result.map (⟨flight, ·⟩)))
  | .announcing flight published result =>
    { g with outcomes := g.outcomes.set flight published }.setStage index (.returned result)
  | .waiting flight =>
    match g.outcomes.get? flight with
    | none => g
    | some (some entry) => g.setStage index (.returned (.ok entry))
    -- Nothing was published: the caller looks again, and may resolve for itself.
    | some none => g.setStage index .looking
  | .returned _ => g

/-- The effect of one action. -/
def step (g : Gathering) : CacheAction → Gathering
  | .advance index result =>
    match g.callers[index]? with
    | some caller => g.advance index caller result
    | none => g
  | .invalidate path => { g with cache := (g.cache.invalidate path).2 }
  | .clear => { g with cache := g.cache.clear }

/-- The effect of several actions, one after another. -/
def run (g : Gathering) (actions : List CacheAction) : Gathering :=
  actions.foldl step g

/-- The results of the callers that have returned. -/
def results (g : Gathering) : List (Except ConfigError CacheEntry) :=
  g.callers.filterMap fun caller =>
    match caller.stage with
    | .returned result => some result
    | _ => none

/-- The actions of callers that take turns. Each resolution takes its caller four turns at most,
and every caller may have to resolve. -/
def turns (callers : Nat) (result : Except ConfigError EffectiveConfig) : List CacheAction :=
  (List.replicate (5 * callers) ((List.range callers).map (.advance · result))).flatten

/-- Callers that ask an empty cache for one path and take turns. -/
def race (path : Path) (callers : Nat) (result : Except ConfigError EffectiveConfig) : Gathering :=
  (initial .empty (List.replicate callers path)).run (turns callers result)

/-- The number of resolutions that were started. -/
def resolutions (g : Gathering) : Nat :=
  g.cache.nextFlight

end Gathering

end DocTree
