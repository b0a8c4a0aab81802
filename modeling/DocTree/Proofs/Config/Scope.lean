import DocTree.Config.Resolver
import DocTree.Proofs.Store.Writes

/-!
# Which configuration a change can reach

The configuration of a collection is read from the configuration documents of the collection and of
those above it. A change below a path can only alter it if one of these documents lies there, and
then the collection lies at or below one of those that `Settings.changeScope` names.

## Main definitions

* `Settings.Configures`: a path holds a configuration document of a collection or of one above it.
* `Path.UnderAny`: a path lies at or below one of several paths.
* `Settings.Bears`: a configuration document of a collection lies at or below a path.
* `Settings.Overlooks`: the ways in which a change passes a collection by that it should reach.

## Main results

* `EffectiveConfig.load_congr`: configuration depends on configuration documents only.
* `Settings.mem_changeScope_iff`: what the scope of a change consists of.
* `Settings.exists_reach?_iff`: a change reaches the collections that have documents there, apart
  from those that are overlooked.
* `Settings.underAny_changeScope`: the scope of a mutation covers every collection below the root
  collection whose configuration documents the mutation touches.
-/

namespace DocTree

/-- A path lies at or below one of several paths. -/
def Path.UnderAny (paths : List Path) (path : Path) : Prop :=
  ∃ top ∈ paths, path.startsWith top

namespace Path

/-- Nothing lies below one of no paths. -/
@[simp]
theorem not_underAny_nil (path : Path) : ¬UnderAny [] path := by
  simp [UnderAny]

/-- A path under one of two lists of paths is under one of the first or one of the second. -/
@[simp]
theorem underAny_append {front back : List Path} {path : Path} :
    UnderAny (front ++ back) path ↔ UnderAny front path ∨ UnderAny back path := by
  simp [UnderAny, or_and_right, exists_or]

/-- More paths have more below them. -/
theorem UnderAny.mono {paths more : List Path} {path : Path} (h : UnderAny paths path)
    (hsub : ∀ top ∈ paths, top ∈ more) : UnderAny more path := by
  obtain ⟨top, htop, hbelow⟩ := h
  exact ⟨top, hsub top htop, hbelow⟩

/-- The root collection has one segment. -/
theorem segments_root : root.segments = [['d', 'b']] := by
  decide

/-- A collection above one at or below the root collection lies at or below it, too. -/
theorem startsWith_root_of_above {collection level : Path} (hroot : collection.startsWith root)
    (hlevel : collection.startsWith level) : level.startsWith root := by
  rcases startsWith_or_startsWith hlevel hroot with h | h
  · exact h
  · rw [startsWith_iff_segments, segments_root] at h
    have hlevel := h.eq_of_length_le (List.length_pos_iff.2 level.segments_ne_nil)
    exact startsWith_iff_segments.2 ⟨[], segments_root.trans hlevel.symm⟩

end Path

/-- A path holds the configuration document of a collection or of one above it. -/
def Settings.Configures (settings : Settings) (path collection : Path) : Prop :=
  ∃ level, collection.startsWith level ∧ settings.documentFor? level = some path

/-- A configuration document of a collection, or of one above it, lies at or below a path. -/
def Settings.Bears (settings : Settings) (path collection : Path) : Prop :=
  ∃ document, settings.Configures document collection ∧ document.startsWith path

/-- A change at a path is taken not to reach a collection, whatever it does to the configuration
documents there: the collection is not one of those below the root collection, and the path is the
configuration root or lies above it; or the path is the counterpart of a collection of one segment
that has the name of the documents, and passes for a document itself. -/
def Settings.Overlooks (settings : Settings) (path collection : Path) : Prop :=
  (settings.configRoot.startsWith path ∧ ¬collection.startsWith .root) ∨
    path.segments = settings.configRoot.segments ++ [settings.fileName.toList]

/-! ### What configuration depends on -/

/-- The level of a collection depends on its configuration document only. -/
theorem ConfigLevel.load_congr {settings : Settings} {before after : Tree} {collection : Path}
    (h : ∀ path, settings.documentFor? collection = some path →
      after.get? path = before.get? path) :
    ConfigLevel.load settings after collection = ConfigLevel.load settings before collection := by
  unfold ConfigLevel.load
  cases hpath : settings.documentFor? collection with
  | none => rfl
  | some path =>
    have hread : after.readConfig path = before.readConfig path := by
      rw [Tree.readConfig, Tree.readConfig, h path hpath]
    simp only [hread]

/-- Two computations that agree on the elements of a list agree on the list. -/
theorem mapM_congr_of_mem {ε α β : Type} {f g : α → Except ε β} {items : List α}
    (h : ∀ item ∈ items, f item = g item) : items.mapM f = items.mapM g := by
  induction items with
  | nil => rfl
  | cons first rest ih =>
    rw [List.mapM_cons, List.mapM_cons, h first (List.mem_cons_self ..),
      ih fun item hitem => h item (List.mem_cons_of_mem _ hitem)]

/-- Configuration depends on the configuration documents of the collection and those above. -/
theorem EffectiveConfig.load_congr {settings : Settings} {before after : Tree} {collection : Path}
    (h : ∀ path, settings.Configures path collection → after.get? path = before.get? path) :
    EffectiveConfig.load settings after collection =
      EffectiveConfig.load settings before collection := by
  -- A configuration is put together from the levels above it, each of which reads one document.
  have hlevels : collection.ancestors.mapM (ConfigLevel.load settings after) =
      collection.ancestors.mapM (ConfigLevel.load settings before) := by
    refine mapM_congr_of_mem fun level hlevel => ConfigLevel.load_congr fun path hpath => ?_
    exact h path ⟨level, Path.mem_ancestors_iff.1 hlevel, hpath⟩
  rw [load, load, hlevels]

namespace Settings

/-! ### The scope of a change -/

/-- A list that elements are added to unless they are there holds what it held and what was
added. -/
theorem mem_foldl_addNew {paths found : List Path} {path : Path} :
    path ∈ paths.foldl (fun found path => if found.contains path then found else found ++ [path])
        found ↔
      path ∈ found ∨ path ∈ paths := by
  induction paths generalizing found with
  | nil => simp
  | cons first rest ih =>
    rw [List.foldl_cons, ih]
    -- An element that is there already is not added again.
    by_cases hfirst : found.contains first
    · rw [if_pos hfirst]
      have hmem : first ∈ found := by simpa using hfirst
      constructor
      · rintro (h | h)
        · exact .inl h
        · exact .inr (List.mem_cons_of_mem _ h)
      · rintro (h | h)
        · exact .inl h
        · rcases List.mem_cons.1 h with rfl | h
          · exact .inl hmem
          · exact .inr h
    · rw [if_neg hfirst, List.mem_append, List.mem_singleton, List.mem_cons, or_assoc]

/-- The scope of a change is where configuration may change at one of its paths. -/
theorem mem_changeScope_iff {settings : Settings} {source : Path} {destination : Option Path}
    {top : Path} :
    top ∈ settings.changeScope source destination ↔
      settings.reach? source = some top ∨
        ∃ path, destination = some path ∧ settings.reach? path = some top := by
  rw [changeScope, mem_foldl_addNew, List.mem_filterMap]
  cases destination <;> simp

/-! ### Collections that a change reaches -/

variable {settings : Settings} {path collection document : Path}

theorem documentFor?_eq_some_iff :
    settings.documentFor? collection = some document ↔
      Path.IsSegment settings.fileName.toList ∧
        document.segments =
          settings.configRoot.segments ++ (collection.segments ++ [settings.fileName.toList]) := by
  rw [documentFor?, Path.child?_eq_some_iff, Path.segments_append, List.append_assoc]

/-- If the name of the documents can be a segment, each collection has a place for its document. -/
theorem exists_documentFor? (hfile : Path.IsSegment settings.fileName.toList) (collection : Path) :
    ∃ document, settings.documentFor? collection = some document := by
  unfold documentFor? Path.child?
  exact ⟨_, dif_pos hfile⟩

/-- The document of a collection lies below the counterpart of the collection. -/
theorem startsWith_of_documentFor? (h : settings.documentFor? collection = some document) :
    document.startsWith (settings.configRoot.append collection) := by
  rw [Path.startsWith_iff_segments, (documentFor?_eq_some_iff.1 h).2, Path.segments_append,
    ← List.append_assoc]
  exact List.prefix_append ..

theorem collectionFor?_append (settings : Settings) (counterpart : Path) :
    settings.collectionFor? (settings.configRoot.append counterpart) =
      if counterpart.name = settings.fileName.toList then counterpart.parent?
      else some counterpart := by
  rw [collectionFor?, Path.stripAncestor?_eq_some_iff.2 rfl, Option.bind_some]

/-- Below the configuration root, what is overlooked is the counterpart of a collection of one
segment. -/
theorem overlooks_append_iff {counterpart : Path} :
    settings.Overlooks (settings.configRoot.append counterpart) collection ↔
      counterpart.segments = [settings.fileName.toList] := by
  rw [Overlooks, Path.segments_append]
  constructor
  · rintro (⟨hroot, -⟩ | hname)
    · have hlength := (Path.startsWith_iff_segments.1 hroot).length_le
      have hpos := List.length_pos_iff.2 counterpart.segments_ne_nil
      rw [Path.segments_append, List.length_append] at hlength
      omega
    · exact List.append_cancel_left hname
  · intro hname
    exact .inr (by rw [hname])

/-- A change at or above the configuration root is taken to reach the collections below the root
collection. -/
theorem reach?_of_above (h : settings.configRoot.startsWith path) :
    settings.reach? path = some .root :=
  if_pos h

theorem reach?_of_not_above (h : ¬settings.configRoot.startsWith path) :
    settings.reach? path = settings.collectionFor? path :=
  if_neg h

/-- A change at a path is taken to reach a collection if a configuration document of the collection
lies at or below the path, unless the collection is overlooked. -/
theorem exists_reach?_of_bears (hbears : settings.Bears path collection)
    (hseen : ¬settings.Overlooks path collection) :
    ∃ top, settings.reach? path = some top ∧ collection.startsWith top := by
  obtain ⟨document, ⟨level, hlevel, hdocument⟩, hbelow⟩ := hbears
  obtain ⟨-, hsegments⟩ := documentFor?_eq_some_iff.1 hdocument
  have hprefix := Path.startsWith_iff_segments.1 hbelow
  rw [hsegments] at hprefix
  -- The path lies at or above the configuration root, or strictly below it.
  by_cases habove : settings.configRoot.startsWith path
  · refine ⟨.root, reach?_of_above habove, Classical.byContradiction fun houtside => ?_⟩
    exact hseen (.inl ⟨habove, houtside⟩)
  · rw [reach?_of_not_above habove]
    obtain ⟨counterpart, rfl, htail⟩ := Path.exists_append_of_prefix hprefix habove
    rw [overlooks_append_iff] at hseen
    rw [collectionFor?_append]
    rcases List.prefix_concat_iff.1 htail with hdocument | hlevels
    · -- The path is the document itself.
      rw [if_pos (Path.name_eq_of_segments hdocument)]
      exact ⟨level, Path.parent?_eq_some_of_segments hdocument, hlevel⟩
    · -- The path is the counterpart of the level or of a collection above it.
      have habove : collection.startsWith counterpart :=
        Path.startsWith_trans hlevel (Path.startsWith_iff_segments.2 hlevels)
      split
      next hname =>
        cases hparent : counterpart.parent? with
        | some parent => exact ⟨parent, rfl, Path.startsWith_trans habove
            (Path.startsWith_parent hparent)⟩
        | none =>
          -- The counterpart passes for the document of a collection that does not exist.
          exact absurd (hname ▸ Path.parent?_eq_none_iff.1 hparent) hseen
      next => exact ⟨counterpart, rfl, habove⟩

/-- All documents lie at or below the configuration root and what is above it. -/
theorem bears_of_above (hfile : Path.IsSegment settings.fileName.toList)
    (h : settings.configRoot.startsWith path) (collection : Path) :
    settings.Bears path collection := by
  obtain ⟨document, hdocument⟩ := exists_documentFor? hfile collection
  have hbelow := startsWith_of_documentFor? hdocument
  exact ⟨document, ⟨collection, Path.startsWith_self _, hdocument⟩,
    Path.startsWith_trans (Path.startsWith_trans hbelow (Path.startsWith_append ..)) h⟩

/-- A change at a path is taken to reach exactly the collections that have a configuration document
at or below the path, apart from those that are overlooked. -/
theorem exists_reach?_iff (hfile : Path.IsSegment settings.fileName.toList) :
    (∃ top, settings.reach? path = some top ∧ collection.startsWith top) ↔
      settings.Bears path collection ∧ ¬settings.Overlooks path collection := by
  refine ⟨?_, fun h => exists_reach?_of_bears h.1 h.2⟩
  rintro ⟨top, hreach, htop⟩
  by_cases habove : settings.configRoot.startsWith path
  · rw [reach?_of_above habove] at hreach
    cases hreach
    refine ⟨bears_of_above hfile habove collection, ?_⟩
    rintro (⟨-, houtside⟩ | hname)
    · exact houtside htop
    · have hlength := (Path.startsWith_iff_segments.1 habove).length_le
      simp only [hname, List.length_append, List.length_singleton] at hlength
      omega
  · rw [reach?_of_not_above habove] at hreach
    obtain ⟨counterpart, hstrip, -⟩ := Option.bind_eq_some_iff.1 hreach
    obtain rfl := Path.stripAncestor?_eq_some_iff.1 hstrip
    rw [collectionFor?_append] at hreach
    rw [overlooks_append_iff]
    split at hreach
    next hname =>
      -- The path is the document of the collection that is named.
      have hcut := Path.segments_eq_append_name hreach
      refine ⟨⟨_, ⟨top, htop, ?_⟩, Path.startsWith_self _⟩, fun hsingle => ?_⟩
      · exact documentFor?_eq_some_iff.2 ⟨hfile, by rw [Path.segments_append, hcut, hname]⟩
      · have hlength := Path.length_segments_of_parent? hreach
        have hpos := List.length_pos_iff.2 top.segments_ne_nil
        rw [hsingle, List.length_singleton] at hlength
        omega
    next hname =>
      obtain rfl : counterpart = top := Option.some.inj hreach
      obtain ⟨document, hdocument⟩ := exists_documentFor? hfile counterpart
      refine ⟨⟨document, ⟨counterpart, htop, hdocument⟩, startsWith_of_documentFor? hdocument⟩, ?_⟩
      intro hsingle
      exact hname (Path.name_eq_of_segments (hsingle.trans (List.nil_append _).symm))

/-- Below the root collection nothing is overlooked, unless the documents have the name of the root
collection: then its counterpart passes for a document. -/
theorem not_overlooks_of_ne_db (hfile : settings.fileName ≠ "db")
    (hroot : collection.startsWith .root) (hbears : settings.Bears path collection) :
    ¬settings.Overlooks path collection := by
  rintro (⟨-, houtside⟩ | hname)
  · exact houtside hroot
  · obtain ⟨document, ⟨level, hlevel, hdocument⟩, hbelow⟩ := hbears
    obtain ⟨-, hsegments⟩ := documentFor?_eq_some_iff.1 hdocument
    -- The first segment of the level is that of the root collection, and the name of the documents.
    obtain ⟨rest, hrest⟩ :=
      Path.startsWith_iff_segments.1 (Path.startsWith_root_of_above hroot hlevel)
    have hprefix := Path.startsWith_iff_segments.1 hbelow
    rw [hsegments, hname, List.prefix_append_right_inj, ← hrest, Path.segments_root] at hprefix
    have hdb : settings.fileName.toList = ['d', 'b'] := by simpa using hprefix
    exact hfile (String.toList_inj.1 hdb)

/-- If a configuration document of a collection lies at or below a path, then a change at that path
reaches the collection. The name of the root collection must not be that of the documents: the
counterpart of the root collection would pass for a document. -/
theorem exists_reach?_of_configures {settings : Settings} (hfile : settings.fileName ≠ "db")
    {collection : Path} (hroot : collection.startsWith .root) {path document : Path}
    (hconfigures : settings.Configures document collection) (hbelow : document.startsWith path) :
    ∃ top, settings.reach? path = some top ∧ collection.startsWith top :=
  have hbears : settings.Bears path collection := ⟨document, hconfigures, hbelow⟩
  exists_reach?_of_bears hbears (not_overlooks_of_ne_db hfile hroot hbears)

/-- The scope of a mutation covers every collection at or below the root collection whose
configuration documents the mutation touches. -/
theorem underAny_changeScope {settings : Settings} (hfile : settings.fileName ≠ "db")
    {collection : Path} (hroot : collection.startsWith .root) {mutation : Mutation}
    {document : Path} (hconfigures : settings.Configures document collection)
    (htouches : mutation.Touches document) :
    collection.UnderAny (settings.changeScope mutation.source mutation.destination?) := by
  rcases htouches with hbelow | ⟨destination, hdestination, hbelow⟩
  · obtain ⟨top, hreach, htop⟩ := exists_reach?_of_configures hfile hroot hconfigures hbelow
    exact ⟨top, mem_changeScope_iff.2 (.inl hreach), htop⟩
  · obtain ⟨top, hreach, htop⟩ := exists_reach?_of_configures hfile hroot hconfigures hbelow
    exact ⟨top, mem_changeScope_iff.2 (.inr ⟨destination, hdestination, hreach⟩), htop⟩

end Settings

end DocTree
