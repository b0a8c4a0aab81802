import DocTree.Proofs.Config.Scope
import DocTree.Proofs.Store.Hierarchy
import DocTree.Proofs.Store.Runs

/-!
# Collections that are overlooked

A mutation that changes the configuration of a collection is followed by an invalidation of the
collections in its scope, so that configuration that is out of date is not served from the cache.
The scope should cover every collection whose configuration has changed. In two situations it does
not. A mutation at or above the configuration root has the root collection for its scope, although
there may be collections next to the root collection, with documents of their own. And the
counterpart of a collection that consists of one segment, and has the name that the documents have,
passes for a document, but not for one of any collection.

Nothing else is overlooked: these are the only mutations whose scope misses a collection, and each
of them does.

## Main results

* `Settings.underAny_changeScope_iff`: the collections in the scope of a mutation.
* `Settings.exists_bears_of_load_ne`: configuration changes only if a document lies at or below a
  path that the mutation names.
* `Settings.overlooks_of_load_ne`: whether a collection whose configuration has changed is missed.
* `Settings.not_underAny_of_load_ne`: the scope does not cover every such collection.
-/

namespace DocTree

/-- The paths that a mutation names. -/
def Mutation.named (mutation : Mutation) : List Path :=
  mutation.source :: mutation.destination?.toList

namespace Settings

variable {settings : Settings} {store after : Store} {transaction : TransactionId}
  {mutation : Mutation} {collection : Path}

/-- A collection is in the scope of a mutation if the mutation reaches it from a path it names. -/
theorem underAny_changeScope_iff :
    collection.UnderAny (settings.changeScope mutation.source mutation.destination?) ↔
      ∃ path ∈ mutation.named, ∃ top, settings.reach? path = some top ∧
        collection.startsWith top := by
  simp only [Path.UnderAny, mem_changeScope_iff, Mutation.named, List.mem_cons,
    Option.mem_toList]
  constructor
  · rintro ⟨top, hreach | ⟨path, hpath, hreach⟩, htop⟩
    · exact ⟨_, .inl rfl, top, hreach, htop⟩
    · exact ⟨path, .inr hpath, top, hreach, htop⟩
  · rintro ⟨path, rfl | hpath, top, hreach, htop⟩
    · exact ⟨top, .inl hreach, htop⟩
    · exact ⟨top, .inr ⟨path, hpath, hreach⟩, htop⟩

/-- If a mutation changes the configuration of a collection, then a document of the collection lies
at or below one of the paths that the mutation names. -/
theorem exists_bears_of_load_ne (hperform : store.perform transaction mutation = .ok after)
    (hload : EffectiveConfig.load settings after.tree collection ≠
      EffectiveConfig.load settings store.tree collection) :
    ∃ path ∈ mutation.named, settings.Bears path collection := by
  refine Classical.byContradiction fun hnone => hload (EffectiveConfig.load_congr ?_)
  intro document hdocument
  refine Store.get?_of_perform hperform fun htouches => hnone ?_
  rcases htouches with hbelow | ⟨destination, hdestination, hbelow⟩
  · exact ⟨mutation.source, List.mem_cons_self .., document, hdocument, hbelow⟩
  · refine ⟨destination, List.mem_cons_of_mem _ ?_, document, hdocument, hbelow⟩
    exact Option.mem_toList.2 hdestination

/-- If a mutation changes the configuration of a collection, then a document of the collection lies
at or below a path that the mutation names. The scope of the mutation misses the collection exactly
if the collection is overlooked from each of these paths. -/
theorem overlooks_of_load_ne (hfile : Path.IsSegment settings.fileName.toList)
    (hperform : store.perform transaction mutation = .ok after)
    (hload : EffectiveConfig.load settings after.tree collection ≠
      EffectiveConfig.load settings store.tree collection) :
    (∃ path ∈ mutation.named, settings.Bears path collection) ∧
      (¬collection.UnderAny (settings.changeScope mutation.source mutation.destination?) ↔
        ∀ path ∈ mutation.named, settings.Bears path collection →
          settings.Overlooks path collection) := by
  refine ⟨exists_bears_of_load_ne hperform hload, ?_⟩
  simp only [underAny_changeScope_iff, exists_reach?_iff hfile, not_exists, not_and,
    Classical.not_not]

/-- Requests that declare an indexing rule for a collection in a transaction that stays open: the
counterpart of the collection is created below the configuration root, and gets a document. -/
def declaring (settings : Settings) (collection : Path) : List Store.Request :=
  let counterpart := settings.configRoot.append collection
  let document := (settings.documentFor? collection).getD .root
  .beginTransaction ::
    ((counterpart.ancestors.drop 1).map fun path => .perform 1 (.createCollection path)) ++
    [.perform 1 (.createDocument document
      "\x7b\"index\":[\x7b\"path\":\"//title\",\"kind\":\"range\"\x7d]\x7d".toUTF8)]

/-- Settings under which configuration documents have the name of the root collection. -/
def namedAfterRoot : Settings :=
  { Settings.default with fileName := "db" }

/-- The store in which the root collection is configured under these settings. -/
def rootConfigured : Store :=
  Store.initial.run (declaring namedAfterRoot .root)

/-- The mutation that deletes the counterpart of the root collection. -/
def deletingRootLevel : Mutation :=
  .deleteCollection (Settings.defaultRoot.append .root)

/-- Where configuration documents have the name of the root collection, deleting its counterpart
leaves the root collection without its configuration, and the scope of the deletion misses it. -/
theorem overlooks_of_load_ne_root :
    Path.IsSegment namedAfterRoot.fileName.toList ∧
    rootConfigured.perform 1 deletingRootLevel =
      .ok (rootConfigured.respond (.perform 1 deletingRootLevel)).2 ∧
    EffectiveConfig.load namedAfterRoot
        (rootConfigured.respond (.perform 1 deletingRootLevel)).2.tree .root ≠
      EffectiveConfig.load namedAfterRoot rootConfigured.tree .root ∧
    (∃ path ∈ deletingRootLevel.named, namedAfterRoot.Bears path .root) ∧
    ¬Path.UnderAny
      (namedAfterRoot.changeScope deletingRootLevel.source deletingRootLevel.destination?)
      .root := by
  have hfile : Path.IsSegment namedAfterRoot.fileName.toList := by decide
  have hperform : rootConfigured.perform 1 deletingRootLevel =
      .ok (rootConfigured.respond (.perform 1 deletingRootLevel)).2 :=
    Store.perform_of_isOk (by decide +kernel)
  have hload : EffectiveConfig.load namedAfterRoot
        (rootConfigured.respond (.perform 1 deletingRootLevel)).2.tree .root ≠
      EffectiveConfig.load namedAfterRoot rootConfigured.tree .root :=
    fun heq => absurd (congrArg Except.toOption heq) (by decide +kernel)
  obtain ⟨hbears, hmissed⟩ := overlooks_of_load_ne hfile hperform hload
  refine ⟨hfile, hperform, hload, hbears, hmissed.2 fun path hpath _ => .inr ?_⟩
  obtain rfl : path = Settings.defaultRoot.append .root := List.mem_singleton.1 hpath
  decide

/-- A collection next to the root collection. -/
def archive : Path :=
  Path.ofSegments ["archive".toList] (by decide) (by decide)

/-- The store in which the collection next to the root collection is configured. -/
def archiveConfigured : Store :=
  Store.initial.run (declaring .default archive)

/-- The scope of a mutation does not cover every collection whose configuration changes, although
the hierarchy is as it should be: deleting the configuration root also leaves a collection next to
the root collection without its configuration. -/
theorem not_underAny_of_load_ne :
    ¬∀ (settings : Settings) (store after : Store) (transaction : TransactionId)
      (mutation : Mutation) (collection : Path),
      Path.IsSegment settings.fileName.toList → store.tree.ParentClosed →
      store.perform transaction mutation = .ok after →
      EffectiveConfig.load settings after.tree collection ≠
        EffectiveConfig.load settings store.tree collection →
      collection.UnderAny (settings.changeScope mutation.source mutation.destination?) := by
  intro h
  have hcovered := h .default archiveConfigured
    (archiveConfigured.respond (.perform 1 (.deleteCollection Settings.defaultRoot))).2 1
    (.deleteCollection Settings.defaultRoot) archive (by decide) (by decide +kernel)
    (Store.perform_of_isOk (by decide +kernel))
    (fun heq => absurd (congrArg Except.toOption heq) (by decide +kernel))
  obtain ⟨top, htop, hbelow⟩ := hcovered
  -- The scope consists of the root collection.
  have hscope : Settings.default.changeScope Settings.defaultRoot none = [.root] := by
    decide +kernel
  obtain rfl : top = .root := List.mem_singleton.1 (hscope ▸ htop)
  exact absurd hbelow (by decide)

end Settings

end DocTree
