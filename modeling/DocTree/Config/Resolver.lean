import DocTree.Config.Cache
import DocTree.Store.Basic

/-!
# Resolving configurations

The effective configuration of a collection, from the cache or the store; and which cached
configurations a change makes obsolete.

## Main definitions

* `Resolver`: the cache, and whether the configuration root was seen to.
* `Resolver.ensureRoot`: creates the configuration root.
* `Resolver.resolve`: the effective configuration of a collection.
* `Settings.changeScope`: where configuration may change when a path does.
-/

namespace DocTree

/-- What is kept for resolving configurations. -/
structure Resolver where
  /-- Whether the configuration root was created, or seen to exist. -/
  rootReady : Bool
  /-- The configurations resolved so far. -/
  cache : ConfigCache
  deriving DecidableEq

/-- The collections below which configuration may change when something happens at a path: all of
them if the path is the configuration root or lies above it, those that it configures if it lies
below, and none otherwise. -/
def Settings.reach? (settings : Settings) (path : Path) : Option Path :=
  if settings.configRoot.startsWith path then some .root else settings.collectionFor? path

/-- The collections below which configuration may change when something happens at two paths, in
order and without repetition. -/
def Settings.changeScope (settings : Settings) (source : Path)
    (destination : Option Path) : List Path :=
  ((source :: destination.toList).filterMap settings.reach?).foldl
    (fun found path => if found.contains path then found else found ++ [path]) []

namespace Resolver

/-- A resolver that has not resolved anything yet. -/
def initial : Resolver :=
  ⟨false, .empty⟩

instance : Inhabited Resolver := ⟨initial⟩

/-- Creates collections one after another in a transaction. -/
def createCollections (transaction : TransactionId) (store : Store) :
    List Path → Except StoreError Unit × Store
  | [] => (.ok (), store)
  | path :: rest =>
    match store.perform transaction (.createCollection path) with
    | .ok store => createCollections transaction store rest
    | .error e => (.error e, store)

/-- Creates the configuration root and what is missing above it, in a transaction of its own and
without triggers. Once this has succeeded it does nothing. -/
def ensureRoot (settings : Settings) (resolver : Resolver) (store : Store) :
    Except ConfigError Unit × Resolver × Store :=
  if resolver.rootReady then (.ok (), resolver, store)
  else
    let missing := settings.configRoot.ancestors.filter fun path => !store.contains path
    if missing.isEmpty then (.ok (), { resolver with rootReady := true }, store)
    else
      let (transaction, store) := store.beginTransaction
      match createCollections transaction store missing with
      | (.ok (), store) =>
        match store.commit transaction with
        | .ok store => (.ok (), { resolver with rootReady := true }, store)
        | .error e => (.error (.storage e), resolver, store)
      | (.error e, store) =>
        match store.abort transaction with
        | .ok store => (.error (.storage e), resolver, store)
        -- Why the collections could not be created matters more than the failed abort.
        | .error _ => (.error (.storage e), resolver, store)

/-- The effective configuration of a collection. Nothing is cached if it cannot be determined. -/
def resolve (settings : Settings) (resolver : Resolver) (store : Store) (collection : Path) :
    Except ConfigError CacheEntry × Resolver × Store :=
  match resolver.ensureRoot settings store with
  | (.error e, resolver, store) => (.error e, resolver, store)
  | (.ok (), resolver, store) =>
    let (result, (cache, ())) := ConfigCache.fetch collection
      (fun state => (EffectiveConfig.load settings store.tree collection, state))
      (resolver.cache, ())
    (result, { resolver with cache }, store)

/-- Drops the cached configurations at and below a path; the first component counts them. -/
def invalidate (resolver : Resolver) (path : Path) : Nat × Resolver :=
  let (count, cache) := resolver.cache.invalidate path
  (count, { resolver with cache })

/-- Drops the cached configurations at and below several paths; the first component counts them. -/
def invalidateAll (resolver : Resolver) : List Path → Nat × Resolver
  | [] => (0, resolver)
  | path :: rest =>
    let (count, resolver) := resolver.invalidate path
    let (more, resolver) := resolver.invalidateAll rest
    (count + more, resolver)

/-- Drops the cached configurations that a change at two paths makes obsolete; the first component
counts them. -/
def invalidateFor (settings : Settings) (resolver : Resolver) (source : Path)
    (destination : Option Path) : Nat × Resolver :=
  resolver.invalidateAll (settings.changeScope source destination)

end Resolver

end DocTree
