import Mathlib.Data.List.Forall2
import DocTree.Proofs.Config.Scope

/-!
# How configuration is inherited

A collection inherits the configuration of every collection above it. Each of them contributes what
its own document declares, in the order of the document, and the contributions follow one another
from the outermost collection inwards. A single document that cannot be read, does not hold a
configuration or declares a trigger that cannot be bound spoils the configuration of all
collections at and below its own; the outermost such document is the one that is reported.

## Main definitions

* `ConfigLevel.Contributes`: what the document of one collection contributes, or what is wrong
  with it.

## Main results

* `mapM_eq_ok_iff` and `mapM_eq_error_iff`: when a computation over a list succeeds, and with which
  error it fails.
* `Path.ancestors_prefix`: whatever is above a collection is above the collections below it, too,
  and in the same order.
* `ConfigLevel.contributes_iff`: a level is loaded as its contribution says.
* `EffectiveConfig.load_eq_ok_iff` and `EffectiveConfig.load_eq_error_iff`: configuration is put
  together from contributions.
* `EffectiveConfig.inherited_load`: what a collection is configured with, and what of it is passed
  on to the collections below.
-/

namespace DocTree

/-! ### Computations over lists -/

section Sequences

variable {ε α β : Type} {f : α → Except ε β}

/-- A computation made of two steps fails if the first step does, or else the second. -/
theorem bind_eq_error_iff {x : Except ε α} {error : ε} :
    (x >>= f) = .error error ↔ x = .error error ∨ ∃ a, x = .ok a ∧ f a = .error error := by
  cases x <;> simp [bind, Except.bind]

/-- A computation over a list succeeds if it does for each element, and collects the results. -/
theorem mapM_eq_ok_iff {items : List α} {results : List β} :
    items.mapM f = .ok results ↔
      List.Forall₂ (fun item result => f item = .ok result) items results := by
  induction items generalizing results with
  | nil =>
    rw [List.mapM_nil, List.forall₂_nil_left_iff]
    exact ⟨fun h => (Except.ok.inj h).symm, fun h => h ▸ rfl⟩
  | cons first rest ih =>
    rw [List.mapM_cons, bind_eq_ok_iff]
    constructor
    · rintro ⟨head, hhead, h⟩
      obtain ⟨tail, htail, h⟩ := bind_eq_ok_iff.1 h
      cases h
      exact .cons hhead (ih.1 htail)
    · rintro (_ | ⟨hhead, htail⟩)
      exact ⟨_, hhead, bind_eq_ok_iff.2 ⟨_, ih.2 htail, rfl⟩⟩

/-- A computation over a list fails with the error of the first element for which it fails. -/
theorem mapM_eq_error_iff {items : List α} {error : ε} :
    items.mapM f = .error error ↔ ∃ front item back, items = front ++ item :: back ∧
      (∀ other ∈ front, ∃ result, f other = .ok result) ∧ f item = .error error := by
  induction items with
  | nil =>
    constructor
    · intro h
      cases h
    · rintro ⟨front, item, back, h, -⟩
      simp at h
  | cons first rest ih =>
    rw [List.mapM_cons, bind_eq_error_iff]
    constructor
    · rintro (h | ⟨head, hhead, h⟩)
      · exact ⟨[], first, rest, rfl, nofun, h⟩
      · rcases bind_eq_error_iff.1 h with h | ⟨tail, -, h⟩
        · obtain ⟨front, item, back, rfl, hfront, hitem⟩ := ih.1 h
          refine ⟨first :: front, item, back, rfl, ?_, hitem⟩
          exact List.forall_mem_cons.2 ⟨⟨head, hhead⟩, hfront⟩
        · cases h
    · rintro ⟨front, item, back, h, hfront, hitem⟩
      cases front with
      | nil =>
        cases h
        exact .inl hitem
      | cons head front =>
        cases h
        obtain ⟨⟨result, hresult⟩, hfront⟩ := List.forall_mem_cons.1 hfront
        refine .inr ⟨result, hresult, bind_eq_error_iff.2 (.inl ?_)⟩
        exact ih.2 ⟨front, item, back, rfl, hfront, hitem⟩

theorem forall_mem_of_forall₂ {R : α → β → Prop} {P : β → Prop} {items : List α}
    {results : List β} (h : List.Forall₂ R items results)
    (hR : ∀ item result, R item result → P result) : ∀ result ∈ results, P result := by
  induction h with
  | nil => exact nofun
  | cons hfirst _ ih => exact List.forall_mem_cons.2 ⟨hR _ _ hfirst, ih⟩

end Sequences

/-- Whatever is above a collection is above the collections below it, too, and in the same
order. -/
theorem Path.ancestors_prefix {path above : Path} (h : path.startsWith above) :
    above.ancestors <+: path.ancestors := by
  -- Induction along the chain of parents, from the path up to the one above it.
  induction hn : path.segments.length generalizing path with
  | zero => exact absurd (List.length_eq_zero_iff.1 hn) path.segments_ne_nil
  | succ n ih =>
    by_cases heq : path = above
    · subst heq
      exact List.prefix_rfl
    · obtain ⟨parent, hparent, habove⟩ := exists_parent?_of_startsWith h heq
      have hlength := length_segments_of_parent? hparent
      have hprefix := ih habove (by omega)
      rw [path.ancestors_eq, hparent]
      exact hprefix.trans (List.prefix_append ..)

/-! ### What one collection contributes -/

@[simp]
theorem Binding.declaredAt_setStem (binding : Binding) (stem : String) :
    (binding.setStem stem).declaredAt = binding.declaredAt := by
  unfold setStem
  split <;> rfl

@[simp]
theorem Binding.declaredAt_addParameters (parameters : List Parameter) (binding : Binding) :
    (parameters.foldl (fun binding parameter =>
      binding.addParameter parameter.name parameter.value) binding).declaredAt =
      binding.declaredAt := by
  induction parameters generalizing binding with
  | nil => rfl
  | cons first rest ih => exact ih _

/-- A binding belongs to the collection in whose configuration it was declared. -/
theorem TriggerDeclaration.declaredAt_of_bind {declaration : TriggerDeclaration}
    {collection : Path} {stem : String} {binding : Binding}
    (h : declaration.bind collection stem = .ok binding) : binding.declaredAt = collection := by
  obtain ⟨_, -, h⟩ := bind_eq_ok_iff.1 h
  obtain ⟨events, -, h⟩ := bind_eq_ok_iff.1 h
  obtain ⟨source, -, h⟩ := bind_eq_ok_iff.1 h
  cases h
  -- Stems and parameters are added to a binding that knows its collection from the start.
  rw [Binding.declaredAt_addParameters]
  split
  · simp [Binding.new, Binding.addEvents]
  · simp [Binding.new, Binding.addEvents]

theorem TriggerDeclaration.declaredAt_of_bindingFor {declaration : TriggerDeclaration}
    {path collection : Path} {stem : String} {binding : Binding}
    (h : declaration.bindingFor path collection stem = .ok binding) :
    binding.declaredAt = collection := by
  unfold bindingFor at h
  cases hbind : declaration.bind collection stem with
  | error problem =>
    rw [hbind] at h
    cases h
  | ok bound =>
    rw [hbind] at h
    cases h
    exact declaredAt_of_bind hbind

namespace ConfigLevel

/-- What the configuration document of a collection contributes, or what is wrong with it. -/
inductive Contributes (settings : Settings) (tree : Tree) (collection : Path) :
    Except ConfigError ConfigLevel → Prop where
  /-- There is no document. -/
  | absent (habsent : ∀ path, settings.documentFor? collection = some path →
        tree.get? path = none) :
      Contributes settings tree collection (.ok .empty)
  /-- The document holds a configuration, and each of its triggers can be bound. -/
  | declared {path : Path} {content : Content} {document : ConfigDocument}
      {bindings : List Binding} (hpath : settings.documentFor? collection = some path)
      (hstored : tree.get? path = some (.document content))
      (hparsed : ConfigDocument.parse path content = .ok document)
      (hbound : List.Forall₂ (fun declaration binding =>
        declaration.bindingFor path collection settings.bindingStem = .ok binding)
        document.triggers bindings) :
      Contributes settings tree collection (.ok ⟨document.index, bindings⟩)
  /-- In place of the document there is a collection. -/
  | unreadable {path : Path} (hpath : settings.documentFor? collection = some path)
      (hstored : tree.get? path = some .collection) :
      Contributes settings tree collection (.error (.storage (.wrongKind path .document)))
  /-- The document does not hold a configuration. -/
  | malformed {path : Path} {content : Content} {error : ConfigError}
      (hpath : settings.documentFor? collection = some path)
      (hstored : tree.get? path = some (.document content))
      (hparsed : ConfigDocument.parse path content = .error error) :
      Contributes settings tree collection (.error error)
  /-- A trigger of the document cannot be bound, and all that come before it can. -/
  | unbound {path : Path} {content : Content} {document : ConfigDocument} {error : ConfigError}
      {front back : List TriggerDeclaration} {declaration : TriggerDeclaration}
      (hpath : settings.documentFor? collection = some path)
      (hstored : tree.get? path = some (.document content))
      (hparsed : ConfigDocument.parse path content = .ok document)
      (htriggers : document.triggers = front ++ declaration :: back)
      (hfront : ∀ other ∈ front, ∃ binding,
        other.bindingFor path collection settings.bindingStem = .ok binding)
      (hdeclaration :
        declaration.bindingFor path collection settings.bindingStem = .error error) :
      Contributes settings tree collection (.error error)

variable {settings : Settings} {tree : Tree} {collection : Path}

theorem contributes_load (settings : Settings) (tree : Tree) (collection : Path) :
    Contributes settings tree collection (load settings tree collection) := by
  unfold load
  cases hpath : settings.documentFor? collection with
  | none => exact .absent fun path h => nomatch hpath.symm.trans h
  | some path =>
    dsimp only
    cases hstored : tree.get? path with
    | none =>
      simp only [Tree.readConfig, hstored]
      refine .absent fun other h => ?_
      cases hpath.symm.trans h
      exact hstored
    | some resource =>
      cases resource with
      | collection =>
        simp only [Tree.readConfig, hstored]
        exact .unreadable hpath hstored
      | document content =>
        simp only [Tree.readConfig, hstored]
        cases hparsed : ConfigDocument.parse path content with
        | error error => exact .malformed hpath hstored hparsed
        | ok document =>
          simp only [bind, Except.bind]
          cases hbindings : document.bindings path collection settings.bindingStem with
          | error error =>
            obtain ⟨front, declaration, back, htriggers, hfront, hdeclaration⟩ :=
              mapM_eq_error_iff.1 hbindings
            exact .unbound hpath hstored hparsed htriggers hfront hdeclaration
          | ok bindings => exact .declared hpath hstored hparsed (mapM_eq_ok_iff.1 hbindings)

theorem load_of_contributes {result : Except ConfigError ConfigLevel}
    (h : Contributes settings tree collection result) :
    load settings tree collection = result := by
  unfold load
  cases h with
  | absent habsent =>
    cases hpath : settings.documentFor? collection with
    | none => rfl
    | some path => simp only [Tree.readConfig, habsent path hpath]
  | declared hpath hstored hparsed hbound =>
    simp only [hpath, Tree.readConfig, hstored, hparsed, bind, Except.bind,
      ConfigDocument.bindings, mapM_eq_ok_iff.2 hbound]
    rfl
  | unreadable hpath hstored => simp only [hpath, Tree.readConfig, hstored]
  | malformed hpath hstored hparsed =>
    simp only [hpath, Tree.readConfig, hstored, hparsed, bind, Except.bind]
  | unbound hpath hstored hparsed htriggers hfront hdeclaration =>
    have hbindings := mapM_eq_error_iff.2 ⟨_, _, _, htriggers, hfront, hdeclaration⟩
    simp only [hpath, Tree.readConfig, hstored, hparsed, bind, Except.bind,
      ConfigDocument.bindings, hbindings]

/-- A level is loaded as its contribution says. -/
theorem contributes_iff {result : Except ConfigError ConfigLevel} :
    Contributes settings tree collection result ↔ load settings tree collection = result :=
  ⟨load_of_contributes, fun h => h ▸ contributes_load settings tree collection⟩

/-- The bindings that a collection contributes are its own. -/
theorem declaredAt_of_contributes {level : ConfigLevel}
    (h : Contributes settings tree collection (.ok level)) :
    ∀ binding ∈ level.bindings, binding.declaredAt = collection := by
  intro binding hbinding
  cases h with
  | absent => cases hbinding
  | declared _ _ _ hbound =>
    exact forall_mem_of_forall₂ hbound
      (fun _ _ h => TriggerDeclaration.declaredAt_of_bindingFor h) binding hbinding

end ConfigLevel

/-! ### What a collection is configured with -/

namespace EffectiveConfig

variable {settings : Settings} {tree : Tree} {collection : Path}

/-- The configuration of a collection is put together from the contributions of the collections
above it and its own. -/
theorem load_eq_ok_iff {config : EffectiveConfig} :
    load settings tree collection = .ok config ↔ ∃ levels,
      List.Forall₂ (fun above level => ConfigLevel.Contributes settings tree above (.ok level))
        collection.ancestors levels ∧
      config = ⟨collection, levels.flatMap ConfigLevel.index,
        levels.flatMap ConfigLevel.bindings⟩ := by
  rw [load, bind_eq_ok_iff]
  refine exists_congr fun levels => ?_
  simp only [mapM_eq_ok_iff, ConfigLevel.contributes_iff]
  exact and_congr_right fun _ => ⟨fun h => (Except.ok.inj h).symm, fun h => h ▸ rfl⟩

/-- What is wrong with the configuration of a collection is what is wrong with the outermost
contribution that has something wrong with it. -/
theorem load_eq_error_iff {error : ConfigError} :
    load settings tree collection = .error error ↔ ∃ outer faulty inner,
      collection.ancestors = outer ++ faulty :: inner ∧
      (∀ above ∈ outer, ∃ level, ConfigLevel.Contributes settings tree above (.ok level)) ∧
      ConfigLevel.Contributes settings tree faulty (.error error) := by
  simp only [load, bind_eq_error_iff, mapM_eq_error_iff, ConfigLevel.contributes_iff]
  constructor
  · rintro (h | ⟨levels, -, h⟩)
    · exact h
    · cases h
  · exact .inl

/-- What is wrong with the configuration of a collection is wrong with that of the collections
below. -/
theorem load_below_of_error {below : Path} (hbelow : below.startsWith collection)
    {error : ConfigError} (h : load settings tree collection = .error error) :
    load settings tree below = .error error := by
  obtain ⟨rest, hrest⟩ := Path.ancestors_prefix hbelow
  obtain ⟨outer, faulty, inner, hancestors, houter, hfaulty⟩ := load_eq_error_iff.1 h
  -- The faulty collection comes first among those above the collection below, too.
  refine load_eq_error_iff.2 ⟨outer, faulty, inner ++ rest, ?_, houter, hfaulty⟩
  rw [← hrest, hancestors, List.append_assoc, List.cons_append]

/-- What a collection below is configured with starts with what the collection is configured
with. -/
theorem exists_inherited_of_load {below : Path} (hbelow : below.startsWith collection)
    {config : EffectiveConfig} (h : load settings tree below = .ok config) :
    ∃ inherited, load settings tree collection = .ok inherited ∧
      inherited.index <+: config.index ∧ inherited.bindings <+: config.bindings := by
  obtain ⟨rest, hrest⟩ := Path.ancestors_prefix hbelow
  obtain ⟨levels, hlevels, hconfig⟩ := bind_eq_ok_iff.1 h
  rw [← hrest, List.mapM_append] at hlevels
  -- The first levels are those of the collection itself.
  obtain ⟨outer, houter, hlevels⟩ := bind_eq_ok_iff.1 hlevels
  obtain ⟨inner, -, hlevels⟩ := bind_eq_ok_iff.1 hlevels
  cases hlevels
  cases hconfig
  refine ⟨_, bind_eq_ok_iff.2 ⟨outer, houter, rfl⟩, ?_, ?_⟩
  · simp [List.flatMap_append]
  · simp [List.flatMap_append]

/-- Configuration is inherited. A collection is configured exactly if each collection above it
makes its contribution and it makes its own; the configuration consists of these contributions,
the outermost first, and each binding names the collection that contributes it. Otherwise the
outermost contribution that has something wrong with it is to blame. A collection below inherits
what is wrong, and has all that it is configured with start with what the collection above is
configured with. -/
theorem inherited_load (settings : Settings) (tree : Tree) (collection : Path) :
    (∀ config, load settings tree collection = .ok config ↔ ∃ levels,
      List.Forall₂ (fun above level =>
        ConfigLevel.Contributes settings tree above (.ok level) ∧
          ∀ binding ∈ level.bindings, binding.declaredAt = above)
        collection.ancestors levels ∧
      config = ⟨collection, levels.flatMap ConfigLevel.index,
        levels.flatMap ConfigLevel.bindings⟩) ∧
    (∀ error, load settings tree collection = .error error ↔ ∃ outer faulty inner,
      collection.ancestors = outer ++ faulty :: inner ∧
      (∀ above ∈ outer, ∃ level, ConfigLevel.Contributes settings tree above (.ok level)) ∧
      ConfigLevel.Contributes settings tree faulty (.error error)) ∧
    ∀ below, below.startsWith collection →
      (∀ error, load settings tree collection = .error error →
        load settings tree below = .error error) ∧
      ∀ config, load settings tree below = .ok config →
        ∃ inherited, load settings tree collection = .ok inherited ∧
          inherited.index <+: config.index ∧ inherited.bindings <+: config.bindings := by
  refine ⟨fun config => ?_, fun error => load_eq_error_iff, fun below hbelow =>
    ⟨fun error => load_below_of_error hbelow, fun config => exists_inherited_of_load hbelow⟩⟩
  rw [load_eq_ok_iff]
  refine exists_congr fun levels => and_congr_left fun _ => ⟨fun h => ?_, fun h => ?_⟩
  · exact h.imp fun above level hlevel => ⟨hlevel, ConfigLevel.declaredAt_of_contributes hlevel⟩
  · exact h.imp fun above level hlevel => hlevel.1

end EffectiveConfig

end DocTree
