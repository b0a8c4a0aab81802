import Mathlib.Data.List.Nodup
import DocTree.Proofs.Hook.EventLists
import DocTree.Proofs.Hook.Parameters

/-!
# What trigger declarations stand for

A declaration is a list of named values in any order and with any repetitions. Of the four names
that have a meaning of their own, `event` adds to what the others under this name have listed, and
of `url`, `query` and `bindingPrefix` the first value counts. All other values are handed to the
program, the first one for each name.

A declaration is refused for its class, for the first unknown event that it lists, or for lack of a
program, whichever of these comes first in this order. How parameters with different names are mixed
matters neither for this nor for the binding, but for the order of the values that are handed to the
program.

## Main definitions

* `MakesStem` and `TriggerDeclaration.HasStem`: stems made of texts, and the stem of a declaration.
* `TriggerDeclaration.Declares`: the binding that a declaration stands for.
* `TriggerDeclaration.Fails`: why a declaration is refused.
* `TriggerDeclaration.Reorders`: the same declaration with its parameters mixed in another way.

## Main results

* `TriggerDeclaration.entries_parameterTable`: the order of the values for the program.
* `TriggerDeclaration.bind_eq`: the binding is put together from what each name is for.
* `TriggerDeclaration.bindingFor_iff_declares`: which declarations are accepted, what they stand
  for, and why the others are refused.
-/

namespace DocTree

/-! ### Stems -/

/-- A text has blank characters only. -/
def IsBlankText (text : String) : Prop :=
  ∀ c ∈ text.toList, Text.isBlank c

/-- A stem is made of a text that is not blank: it is cut off at its two ends, and a colon is added
unless there is one at the end. -/
def MakesStem (text stem : String) : Prop :=
  ∃ word, Text.Trims text.toList word ∧ word ≠ [] ∧
    stem.toList = if word.getLast? = some ':' then word else word ++ [':']

theorem makesStem_normalizeStem {text : String} (h : ¬IsBlankText text) :
    MakesStem text (normalizeStem text) := by
  refine ⟨Text.trim text.toList, Text.trims_trim _, fun hnil => h (Text.trim_eq_nil_iff.1 hnil), ?_⟩
  rw [normalizeStem, String.toList_ofList]

/-- A stem ends with a colon, and there is nothing left to do to it. -/
structure IsStem (stem : String) : Prop where
  /-- It ends with a colon. -/
  colon : stem.toList.getLast? = some ':'
  /-- Making a stem of it changes nothing. -/
  normal : normalizeStem stem = stem

theorem isStem_defaultStem : IsStem defaultStem := by
  constructor <;> decide +kernel

/-- What is made of a text is a stem. -/
theorem isStem_normalizeStem (text : String) : IsStem (normalizeStem text) := by
  -- The colon at its end and its first character keep it from being cut off again.
  obtain ⟨chars, hstem, hlast, hfirst⟩ : ∃ chars, normalizeStem text = String.ofList chars ∧
      chars.getLast? = some ':' ∧ ∀ c ∈ chars.head?, Text.isBlank c = false := by
    refine ⟨_, rfl, ?_, ?_⟩
    · split
      next hcolon => exact hcolon
      next => simp
    · have hword := (Text.trims_trim text.toList).first
      intro c hc
      split at hc
      next => exact hword c hc
      next =>
        rw [List.head?_append] at hc
        cases hhead : (Text.trim text.toList).head? with
        | some first =>
          rw [hhead] at hc
          exact hword c (hhead.trans hc)
        | none =>
          -- Nothing but the colon is there.
          rw [hhead] at hc
          obtain rfl : ':' = c := Option.some.inj hc
          decide
  have hself : Text.trim chars = chars := by
    refine Text.trim_eq_self hfirst fun c hc => ?_
    rw [hlast] at hc
    obtain rfl : ':' = c := Option.some.inj hc
    decide
  refine ⟨by rw [hstem, String.toList_ofList, hlast], ?_⟩
  rw [hstem, normalizeStem, String.toList_ofList, hself, if_pos hlast]

/-! ### The parameters in order -/

/-- Each key is listed where it comes first. -/
theorem Table.map_fst_setNew_foldl {κ α β : Type} [DecidableEq κ] (key : β → κ) (value : β → α)
    (items : List β) (table : Table κ α) :
    (items.foldl (fun table item => table.setNew (key item) (value item)) table).entries.map
        Prod.fst =
      table.entries.map Prod.fst ++
        ((items.map key).filter fun k => k ∉ table.entries.map Prod.fst).eraseDups := by
  induction items generalizing table with
  | nil => simp
  | cons first rest ih =>
    rw [List.foldl_cons, ih, Table.entries_setNew]
    have hunbound : table.get? (key first) = none ↔ key first ∉ table.entries.map Prod.fst :=
      Table.find?_eq_none_iff
    by_cases hbound : key first ∈ table.entries.map Prod.fst
    · have hsome : (table.get? (key first)).isSome := by
        rw [Option.isSome_iff_ne_none]
        exact fun hnone => hunbound.1 hnone hbound
      rw [if_pos hsome, List.map_cons, List.filter_cons_of_neg (by simpa using hbound)]
    · have hnone : ¬(table.get? (key first)).isSome := by
        rw [Option.not_isSome_iff_eq_none]
        exact hunbound.2 hbound
      -- A new key comes at the end, and is not new any more for the rest.
      rw [if_neg hnone, List.map_cons, List.filter_cons_of_pos (by simpa using hbound),
        List.eraseDups_cons, List.filter_filter, List.map_append, List.append_assoc]
      congr 1
      rw [List.map_singleton, List.singleton_append]
      congr 2
      apply List.filter_congr
      intro k _
      rw [Bool.eq_iff_iff, decide_eq_true_iff, List.mem_append, List.mem_singleton]
      simp [not_or, and_comm]

/-- If no key is listed twice, then look-up finds what is listed. -/
theorem Table.find?_eq_some_iff {κ α : Type} [DecidableEq κ] {entries : List (κ × α)}
    (h : (entries.map Prod.fst).Nodup) {key : κ} {value : α} :
    find? key entries = some value ↔ (key, value) ∈ entries := by
  induction entries with
  | nil => simp [find?]
  | cons first rest ih =>
    rw [List.map_cons, List.nodup_cons] at h
    rw [find?, List.mem_cons]
    split
    next hfirst =>
      -- The rest has no such key.
      have hrest : (key, value) ∉ rest := fun hmem =>
        h.1 (hfirst ▸ List.mem_map.2 ⟨_, hmem, rfl⟩)
      rw [or_iff_left hrest, Option.some_inj, Prod.ext_iff]
      simp [hfirst, eq_comm]
    next hfirst =>
      rw [ih h.2]
      simp [Prod.ext_iff, Ne.symm hfirst]

/-! ### Building bindings -/

theorem mapError_eq_ok_iff {ε ε' α : Type} {f : ε → ε'} {x : Except ε α} {a : α} :
    x.mapError f = .ok a ↔ x = .ok a := by
  cases x <;> simp [Except.mapError]

theorem mapError_eq_error_iff {ε ε' α : Type} {f : ε → ε'} {x : Except ε α} {error : ε'} :
    x.mapError f = .error error ↔ ∃ cause, x = .error cause ∧ error = f cause := by
  cases x <;> simp [Except.mapError, eq_comm]

/-- A blank stem is ignored. -/
theorem Binding.setStem_eq (binding : Binding) (stem : String) :
    binding.setStem stem = { binding with
      stem := if (Text.trim stem.toList).isEmpty then binding.stem else normalizeStem stem } := by
  unfold setStem
  split <;> rfl

/-- Nothing but the table of parameters changes when parameters are added. -/
theorem Binding.addParameters_eq (parameters : List Parameter) (binding : Binding) :
    parameters.foldl (fun binding parameter =>
        binding.addParameter parameter.name parameter.value) binding =
      { binding with
        parameters := parameters.foldl
          (fun table parameter => table.setNew parameter.name parameter.value)
          binding.parameters } := by
  induction parameters generalizing binding with
  | nil => rfl
  | cons first rest ih => exact ih _

namespace TriggerDeclaration

variable {declaration other : TriggerDeclaration} {collection : Path} {stem : String}

/-- The names of the parameters that are handed to the program stand in the order in which they
occur first. -/
theorem entries_parameterTable (declaration : TriggerDeclaration) :
    declaration.parameterTable.entries.map Prod.fst =
      (declaration.userParameters.map Parameter.name).eraseDups := by
  rw [parameterTable, Table.map_fst_setNew_foldl Parameter.name Parameter.value]
  simp [Table.empty]

/-- The first value under a name of the user's choice is handed to the program. -/
theorem mem_parameterTable {name value : String} :
    (name, value) ∈ declaration.parameterTable.entries ↔
      declaration.ownValue? name = some value := by
  rw [← get?_parameterTable, Table.get?, Table.find?_eq_some_iff declaration.nodup_parameterTable]

theorem head?_valuesOf_of_ownValue? {name value : String}
    (h : declaration.ownValue? name = some value) :
    (declaration.valuesOf name).head? = some value := by
  unfold ownValue? at h
  split at h
  next => cases h
  next => exact h

/-! ### What each name is for -/

/-- The class of a declaration is not given, or it is the known one. -/
def HasKnownClass (declaration : TriggerDeclaration) : Prop :=
  ∀ name ∈ declaration.className, name = knownClass

/-- Every value under `event` lists events. -/
def ListsEvents (declaration : TriggerDeclaration) : Prop :=
  ∀ value ∈ declaration.valuesOf "event", ∃ events, Event.Lists value.toList events

/-- There is a value under `url` or under `query`. -/
def NamesSource (declaration : TriggerDeclaration) : Prop :=
  declaration.valuesOf "url" ≠ [] ∨ declaration.valuesOf "query" ≠ []

/-- The program of a declaration is kept at the first value under `url`. If there is none, then it
is the first value under `query`. -/
inductive HasSource (declaration : TriggerDeclaration) : ProgramSource → Prop where
  /-- A location is given. -/
  | external {location : String}
      (hurl : (declaration.valuesOf "url").head? = some location) :
      HasSource declaration (.external location)
  /-- Only a text is given. -/
  | inline {program : String} (hurl : declaration.valuesOf "url" = [])
      (hquery : (declaration.valuesOf "query").head? = some program) :
      HasSource declaration (.inline program)

/-- The stem of a declaration, given the stem that its collection asks for. -/
inductive HasStem (declaration : TriggerDeclaration) (default : String) : String → Prop where
  /-- The first value under `bindingPrefix` counts unless it is blank. -/
  | own {text stem : String} (hfirst : (declaration.valuesOf "bindingPrefix").head? = some text)
      (hblank : ¬IsBlankText text) (hmakes : MakesStem text stem) :
      HasStem declaration default stem
  /-- Without one, the stem of the collection counts unless it is blank. -/
  | inherited {stem : String}
      (hown : ∀ text ∈ (declaration.valuesOf "bindingPrefix").head?, IsBlankText text)
      (hblank : ¬IsBlankText default) (hmakes : MakesStem default stem) :
      HasStem declaration default stem
  /-- Without this one too, the stem is the one that is used everywhere. -/
  | standard (hown : ∀ text ∈ (declaration.valuesOf "bindingPrefix").head?, IsBlankText text)
      (hblank : IsBlankText default) : HasStem declaration default defaultStem

/-- A binding is the one that a declaration stands for in the configuration of a collection. -/
structure Declares (declaration : TriggerDeclaration) (collection : Path) (default : String)
    (binding : Binding) : Prop where
  /-- It belongs to the collection. -/
  declaredAt : binding.declaredAt = collection
  /-- Its events are those that any of the values under `event` lists. -/
  events : ∀ event, event ∈ binding.events ↔
    ∃ value ∈ declaration.valuesOf "event", ∃ events, Event.Lists value.toList events ∧
      event ∈ events
  /-- Each of its events is there once, in the common order. -/
  sorted : binding.events.Sublist Event.all
  /-- Its program is the declared one. -/
  source : declaration.HasSource binding.source
  /-- Its stem is the declared one or a default. -/
  hasStem : declaration.HasStem default binding.stem
  /-- Its stem ends with a colon, and there is nothing left to do to it. -/
  isStem : IsStem binding.stem
  /-- Each name without a meaning of its own is handed to the program once, in the order in which
  these names occur first. -/
  names : binding.parameters.entries.map Prod.fst =
    (declaration.userParameters.map Parameter.name).eraseDups
  /-- The first value under a name is handed to the program. -/
  values : ∀ entry ∈ binding.parameters.entries,
    (declaration.valuesOf entry.1).head? = some entry.2

/-- A declaration is refused for a problem, the first in the order of the cases here. -/
inductive Fails (declaration : TriggerDeclaration) : ConfigProblem → Prop where
  /-- The class is another one than the known one. -/
  | unsupportedClass {name : String} (hclass : declaration.className = some name)
      (hname : name ≠ knownClass) : Fails declaration (.unsupportedClass name)
  /-- A value under `event` has an unknown word, and the values before it list events. -/
  | unknownEvent {front back : List String} {value : String} {word : List Char}
      (hclass : declaration.HasKnownClass)
      (hvalues : declaration.valuesOf "event" = front ++ value :: back)
      (hfront : ∀ other ∈ front, ∃ events, Event.Lists other.toList events)
      (hword : Event.FirstUnknown value.toList word) :
      Fails declaration (.unknownEvent (String.ofList word))
  /-- Neither a location nor a text of the program is given. -/
  | missingSource (hclass : declaration.HasKnownClass) (hevents : declaration.ListsEvents)
      (hsource : ¬declaration.NamesSource) : Fails declaration .missingSource

/-- The parameters of a declaration are mixed in another way: those with the same name are still in
the same order. -/
structure Reorders (declaration other : TriggerDeclaration) : Prop where
  /-- The class is the same. -/
  className : other.className = declaration.className
  /-- The parameters with a name are the same ones in the same order. -/
  parameters : ∀ name, (other.parameters.filter fun parameter => parameter.name = name) =
    declaration.parameters.filter fun parameter => parameter.name = name

/-- Two declarations are refused for the same reason, or they stand for bindings that differ at most
in the order of the values that are handed to the program. -/
inductive SameButOrder : Except ConfigError Binding → Except ConfigError Binding → Prop where
  /-- Both are refused. -/
  | error (error : ConfigError) : SameButOrder (.error error) (.error error)
  /-- Both are accepted. -/
  | ok {binding : Binding} {parameters : Table String String}
      (hperm : parameters.entries.Perm binding.parameters.entries) :
      SameButOrder (.ok binding) (.ok { binding with parameters })

/-! ### Checks -/

/-- The stem of a declaration: a blank one is passed over in favour of the next. -/
def stemOver (declaration : TriggerDeclaration) (default : String) : String :=
  let inherited := if (Text.trim default.toList).isEmpty then defaultStem else normalizeStem default
  match (declaration.valuesOf "bindingPrefix").head? with
  | some own => if (Text.trim own.toList).isEmpty then inherited else normalizeStem own
  | none => inherited

theorem isEmpty_trim {text : String} : (Text.trim text.toList).isEmpty ↔ IsBlankText text := by
  rw [List.isEmpty_iff, Text.trim_eq_nil_iff, IsBlankText]

theorem checkClass_eq_ok_iff : declaration.checkClass = .ok () ↔ declaration.HasKnownClass := by
  unfold checkClass HasKnownClass
  cases declaration.className with
  | none => simp
  | some name => by_cases hname : name = knownClass <;> simp [hname]

theorem checkClass_eq_error_iff {problem : ConfigProblem} :
    declaration.checkClass = .error problem ↔
      ∃ name, declaration.className = some name ∧ name ≠ knownClass ∧
        problem = .unsupportedClass name := by
  unfold checkClass
  cases declaration.className with
  | none => simp
  | some name => by_cases hname : name = knownClass <;> simp [hname, eq_comm]

/-- The events are read if every value lists some, and are then those of all values. -/
theorem events_eq_ok_iff {events : List Event} :
    declaration.events = .ok events ↔ ∃ lists,
      List.Forall₂ (fun (value : String) => Event.Lists value.toList)
        (declaration.valuesOf "event") lists ∧ events = lists.flatten := by
  have hmap : ∀ x : Except ConfigProblem (List (List Event)),
      x.map List.flatten = .ok events ↔ ∃ lists, x = .ok lists ∧ events = lists.flatten := by
    intro x
    cases x <;> simp [Except.map, eq_comm]
  rw [TriggerDeclaration.events, hmap]
  simp only [mapM_eq_ok_iff, mapError_eq_ok_iff, Event.readList_eq_ok_iff]

/-- The first value with an unknown word decides. -/
theorem events_eq_error_iff {problem : ConfigProblem} :
    declaration.events = .error problem ↔
      ∃ front value back word, declaration.valuesOf "event" = front ++ value :: back ∧
        (∀ other ∈ front, ∃ events, Event.Lists other.toList events) ∧
        Event.FirstUnknown value.toList word ∧ problem = .unknownEvent (String.ofList word) := by
  have hmap : ∀ x : Except ConfigProblem (List (List Event)),
      x.map List.flatten = .error problem ↔ x = .error problem := by
    intro x
    cases x <;> simp [Except.map]
  rw [TriggerDeclaration.events, hmap, mapM_eq_error_iff]
  simp only [mapError_eq_ok_iff, mapError_eq_error_iff, Event.readList_eq_ok_iff,
    Event.readList_eq_error_iff]
  constructor
  · rintro ⟨front, value, back, hvalues, hfront, word, hword, hproblem⟩
    exact ⟨front, value, back, word, hvalues, hfront, hword, hproblem⟩
  · rintro ⟨front, value, back, word, hvalues, hfront, hword, hproblem⟩
    exact ⟨front, value, back, hvalues, hfront, word, hword, hproblem⟩

/-- The events of all values together. -/
theorem mem_flatten_iff {values : List String} {lists : List (List Event)}
    (h : List.Forall₂ (fun (value : String) => Event.Lists value.toList) values lists)
    (event : Event) : event ∈ lists.flatten ↔
      ∃ value ∈ values, ∃ events, Event.Lists value.toList events ∧ event ∈ events := by
  induction h with
  | nil => simp
  | @cons value events values lists hfirst _ ih =>
    -- No text lists two different lists of events.
    have hunique : (∃ others, Event.Lists value.toList others ∧ event ∈ others) ↔
        event ∈ events := by
      constructor
      · rintro ⟨others, hothers, hevent⟩
        obtain rfl : others = events := Except.ok.inj (hothers.readList.symm.trans hfirst.readList)
        exact hevent
      · exact fun hevent => ⟨events, hfirst, hevent⟩
    rw [List.flatten_cons, List.mem_append, ih, List.exists_mem_cons_iff, hunique]

theorem listsEvents_iff : declaration.ListsEvents ↔ ∃ events, declaration.events = .ok events := by
  constructor
  · intro hlists
    cases hevents : declaration.events with
    | ok events => exact ⟨events, rfl⟩
    | error problem =>
      -- A value with an unknown word lists no events.
      obtain ⟨front, value, back, word, hvalues, -, hword, -⟩ := events_eq_error_iff.1 hevents
      obtain ⟨events, hread⟩ := hlists value (by simp [hvalues])
      have hread := hread.readList
      rw [hword.readList] at hread
      cases hread
  · rintro ⟨events, hevents⟩ value hvalue
    obtain ⟨lists, hlists, -⟩ := events_eq_ok_iff.1 hevents
    refine forall_mem_of_forall₂ (P := fun value => ∃ events, Event.Lists value.toList events)
      hlists.flip ?_ value hvalue
    exact fun events _ hevents => ⟨events, hevents⟩

/-- The program is the declared one. -/
theorem source_eq_ok_iff {source : ProgramSource} :
    declaration.source = .ok source ↔ declaration.HasSource source := by
  unfold TriggerDeclaration.source
  constructor
  · intro h
    split at h
    next location _ hurl =>
      cases h
      exact .external hurl
    next program hurl hquery =>
      cases h
      exact .inline (List.head?_eq_none_iff.1 hurl) hquery
    next => cases h
  · rintro (hurl | ⟨hurl, hquery⟩)
    · rw [hurl]
    · rw [hurl, hquery]
      rfl

theorem source_eq_error_iff {problem : ConfigProblem} :
    declaration.source = .error problem ↔ ¬declaration.NamesSource ∧ problem = .missingSource := by
  unfold TriggerDeclaration.source NamesSource
  cases declaration.valuesOf "url" <;> cases declaration.valuesOf "query" <;> simp [eq_comm]

theorem namesSource_iff : declaration.NamesSource ↔ ∃ source, declaration.source = .ok source := by
  unfold TriggerDeclaration.source NamesSource
  cases declaration.valuesOf "url" <;> cases declaration.valuesOf "query" <;> simp

/-- The stem that is used is the declared one. -/
theorem hasStem_stemOver (declaration : TriggerDeclaration) (default : String) :
    declaration.HasStem default (declaration.stemOver default) := by
  -- The stem that is used unless the declaration has one of its own.
  have hdefault : (∀ text ∈ (declaration.valuesOf "bindingPrefix").head?, IsBlankText text) →
      declaration.HasStem default
        (if (Text.trim default.toList).isEmpty then defaultStem else normalizeStem default) := by
    intro hown
    split
    next hblank => exact .standard hown (isEmpty_trim.1 hblank)
    next hblank =>
      have hblank : ¬IsBlankText default := fun h => hblank (isEmpty_trim.2 h)
      exact .inherited hown hblank (makesStem_normalizeStem hblank)
  unfold stemOver
  dsimp only
  split
  next own hfirst =>
    split
    next hblank =>
      refine hdefault fun text htext => ?_
      obtain rfl : own = text := Option.some.inj (hfirst.symm.trans htext)
      exact isEmpty_trim.1 hblank
    next hblank =>
      have hblank : ¬IsBlankText own := fun h => hblank (isEmpty_trim.2 h)
      exact .own hfirst hblank (makesStem_normalizeStem hblank)
  next hnone =>
    refine hdefault fun text htext => ?_
    rw [hnone] at htext
    cases htext

/-- Whichever stem is used, it is one. -/
theorem isStem_stemOver (declaration : TriggerDeclaration) (default : String) :
    IsStem (declaration.stemOver default) := by
  -- It is a text that was made a stem, or the one that is used everywhere.
  obtain ⟨text, hstem⟩ | hstem : (∃ text, declaration.stemOver default = normalizeStem text) ∨
      declaration.stemOver default = defaultStem := by
    unfold stemOver
    grind
  · rw [hstem]
    exact isStem_normalizeStem text
  · rw [hstem]
    exact isStem_defaultStem

/-! ### Bindings -/

/-- The binding is put together from what each name is for. -/
theorem bind_eq (declaration : TriggerDeclaration) (collection : Path) (stem : String) :
    declaration.bind collection stem = do
      declaration.checkClass
      let events ← declaration.events
      let source ← declaration.source
      return {
        source
        events := Event.all.filter fun event => events.contains event
        stem := declaration.stemOver stem
        parameters := declaration.parameterTable
        declaredAt := collection } := by
  unfold TriggerDeclaration.bind
  -- The checks are the same on both sides. What is left are the steps after them.
  congr 1
  funext _
  congr 1
  funext events
  congr 1
  funext source
  dsimp only
  rw [Binding.addParameters_eq, parameterTable, stemOver]
  cases (declaration.valuesOf "bindingPrefix").head? <;>
    simp [Binding.setStem_eq, Binding.addEvents, Binding.new]

/-- A declaration that is accepted stands for the binding that is put together. -/
theorem declares_of_bind {binding : Binding} (h : declaration.bind collection stem = .ok binding) :
    declaration.Declares collection stem binding := by
  rw [bind_eq] at h
  obtain ⟨_, -, h⟩ := bind_eq_ok_iff.1 h
  obtain ⟨events, hevents, h⟩ := bind_eq_ok_iff.1 h
  obtain ⟨source, hsource, h⟩ := bind_eq_ok_iff.1 h
  cases h
  obtain ⟨lists, hlists, rfl⟩ := events_eq_ok_iff.1 hevents
  exact {
    declaredAt := rfl
    events := fun event => by simpa using mem_flatten_iff hlists event
    sorted := List.filter_sublist
    source := source_eq_ok_iff.1 hsource
    hasStem := hasStem_stemOver declaration stem
    isStem := isStem_stemOver declaration stem
    names := entries_parameterTable declaration
    values := fun entry hentry => head?_valuesOf_of_ownValue? (mem_parameterTable.1 hentry) }

/-- The class, the events and the source decide whether a declaration is accepted. -/
theorem exists_bind_eq_ok_iff : (∃ binding, declaration.bind collection stem = .ok binding) ↔
    declaration.HasKnownClass ∧ declaration.ListsEvents ∧ declaration.NamesSource := by
  rw [bind_eq, ← checkClass_eq_ok_iff, listsEvents_iff, namesSource_iff]
  constructor
  · rintro ⟨binding, h⟩
    obtain ⟨_, hclass, h⟩ := bind_eq_ok_iff.1 h
    obtain ⟨events, hevents, h⟩ := bind_eq_ok_iff.1 h
    obtain ⟨source, hsource, h⟩ := bind_eq_ok_iff.1 h
    exact ⟨hclass, ⟨events, hevents⟩, ⟨source, hsource⟩⟩
  · rintro ⟨hclass, ⟨events, hevents⟩, ⟨source, hsource⟩⟩
    -- All three checks go well, and nothing else can fail.
    rw [hclass, hevents, hsource]
    exact ⟨_, rfl⟩

/-- A declaration is refused for its first problem. -/
theorem bind_eq_error_iff_fails {problem : ConfigProblem} :
    declaration.bind collection stem = .error problem ↔ declaration.Fails problem := by
  rw [bind_eq, bind_eq_error_iff]
  -- A check is made only after those before it have gone well.
  constructor
  · rintro (hproblem | ⟨_, hclass, h⟩)
    · obtain ⟨name, hclass, hname, rfl⟩ := checkClass_eq_error_iff.1 hproblem
      exact .unsupportedClass hclass hname
    have hclass := checkClass_eq_ok_iff.1 hclass
    obtain hproblem | ⟨events, hevents, h⟩ := bind_eq_error_iff.1 h
    · obtain ⟨front, value, back, word, hvalues, hfront, hword, rfl⟩ :=
        events_eq_error_iff.1 hproblem
      exact .unknownEvent hclass hvalues hfront hword
    obtain hproblem | ⟨source, _, h⟩ := bind_eq_error_iff.1 h
    · obtain ⟨hsource, rfl⟩ := source_eq_error_iff.1 hproblem
      exact .missingSource hclass (listsEvents_iff.2 ⟨events, hevents⟩) hsource
    · cases h
  · intro h
    cases h with
    | unsupportedClass hclass hname =>
      exact .inl (checkClass_eq_error_iff.2 ⟨_, hclass, hname, rfl⟩)
    | unknownEvent hclass hvalues hfront hword =>
      refine .inr ⟨(), checkClass_eq_ok_iff.2 hclass, bind_eq_error_iff.2 (.inl ?_)⟩
      exact events_eq_error_iff.2 ⟨_, _, _, _, hvalues, hfront, hword, rfl⟩
    | missingSource hclass hevents hsource =>
      obtain ⟨events, hevents⟩ := listsEvents_iff.1 hevents
      refine .inr ⟨(), checkClass_eq_ok_iff.2 hclass,
        bind_eq_error_iff.2 (.inr ⟨events, hevents, bind_eq_error_iff.2 (.inl ?_)⟩)⟩
      exact source_eq_error_iff.2 ⟨hsource, rfl⟩

/-! ### Another order -/

theorem Reorders.valuesOf_eq (h : declaration.Reorders other) (name : String) :
    other.valuesOf name = declaration.valuesOf name := by
  -- The values under a name are those of the parameters with this name.
  have hvalues : ∀ some : TriggerDeclaration, some.valuesOf name =
      (some.parameters.filter fun parameter => parameter.name = name).map Parameter.value := by
    intro some
    rw [valuesOf, ← List.filterMap_eq_map, List.filterMap_filter]
    apply List.filterMap_congr
    intro parameter _
    by_cases hname : parameter.name = name <;> simp [hname]
  rw [hvalues, hvalues, h.parameters]

/-- The same values are handed to the program. -/
theorem Reorders.perm_parameterTable (h : declaration.Reorders other) :
    other.parameterTable.entries.Perm declaration.parameterTable.entries := by
  -- In both tables each name is listed once, with the same value.
  rw [List.perm_ext_iff_of_nodup (List.Nodup.of_map _ other.nodup_parameterTable)
    (List.Nodup.of_map _ declaration.nodup_parameterTable)]
  rintro ⟨name, value⟩
  rw [mem_parameterTable, mem_parameterTable, ownValue?, ownValue?, h.valuesOf_eq]

/-- Whether a declaration is accepted does not depend on how its parameters are mixed, nor does the
binding, but for the order of the values for the program. -/
theorem Reorders.bind_eq (h : declaration.Reorders other) (collection : Path) (stem : String) :
    other.bind collection stem = (declaration.bind collection stem).map fun binding =>
      { binding with parameters := other.parameterTable } := by
  -- Class, events, source and stem are read from values that do not change places.
  have hclass : other.checkClass = declaration.checkClass := by
    rw [checkClass, checkClass, h.className]
  have hevents : other.events = declaration.events := by
    rw [TriggerDeclaration.events, TriggerDeclaration.events, h.valuesOf_eq]
  have hsource : other.source = declaration.source := by
    rw [TriggerDeclaration.source, TriggerDeclaration.source, h.valuesOf_eq, h.valuesOf_eq]
  have hstem : other.stemOver stem = declaration.stemOver stem := by
    rw [stemOver, stemOver, h.valuesOf_eq]
  rw [TriggerDeclaration.bind_eq, TriggerDeclaration.bind_eq, hclass, hevents, hsource, hstem]
  cases declaration.checkClass <;> cases declaration.events <;> cases declaration.source <;> rfl

/-- Two parameters with different names may change places. -/
theorem Reorders.swap (className : Option String) (front back : List Parameter)
    {first second : Parameter} (h : first.name ≠ second.name) :
    Reorders ⟨className, front ++ first :: second :: back⟩
      ⟨className, front ++ second :: first :: back⟩ := by
  refine ⟨rfl, fun name => ?_⟩
  by_cases hfirst : first.name = name
  · subst hfirst
    simp [List.filter_append, h.symm]
  · simp [List.filter_append, List.filter_cons, hfirst]

/-! ### Validation -/

/-- A declaration is accepted if its class is known, all that it lists are events, and it names a
program. It then stands for the binding that all its parameters together say. Otherwise it is
refused for its first problem. If its parameters are mixed in another way, then nothing changes but
the order of the values that are handed to the program. -/
theorem bindingFor_iff_declares (declaration : TriggerDeclaration) (path collection : Path)
    (stem : String) :
    ((∃ binding, declaration.bindingFor path collection stem = .ok binding) ↔
      declaration.HasKnownClass ∧ declaration.ListsEvents ∧ declaration.NamesSource) ∧
    (∀ binding, declaration.bindingFor path collection stem = .ok binding →
      declaration.Declares collection stem binding) ∧
    (∀ error, declaration.bindingFor path collection stem = .error error ↔
      ∃ problem, declaration.Fails problem ∧ error = .invalid path problem) ∧
    ∀ other, declaration.Reorders other →
      SameButOrder (declaration.bindingFor path collection stem)
        (other.bindingFor path collection stem) := by
  refine ⟨?_, ?_, ?_, ?_⟩
  · simp only [bindingFor, mapError_eq_ok_iff]
    exact exists_bind_eq_ok_iff
  · intro binding h
    rw [bindingFor, mapError_eq_ok_iff] at h
    exact declares_of_bind h
  · intro error
    simp only [bindingFor, mapError_eq_error_iff, bind_eq_error_iff_fails]
  · intro other h
    rw [bindingFor, bindingFor, h.bind_eq]
    cases hbind : declaration.bind collection stem with
    | error problem => exact .error _
    | ok binding =>
      refine .ok ?_
      rw [parameters_of_bind hbind]
      exact h.perm_parameterTable

/-- Two lists of events around two programs, a blank stem, and a title that is given twice. -/
def repetitive : TriggerDeclaration where
  className := some "QueryTrigger"
  parameters := [⟨"depth", "1"⟩, ⟨"title", "a"⟩, ⟨"event", "remove"⟩, ⟨"query", "inside"⟩,
    ⟨"url", "outside"⟩, ⟨"bindingPrefix", "  "⟩, ⟨"title", "b"⟩, ⟨"event", "Store,remove"⟩]

/-- The repetitive declaration with the depth after the first title. -/
def repetitiveMixed : TriggerDeclaration where
  className := some "QueryTrigger"
  parameters := ⟨"title", "a"⟩ :: ⟨"depth", "1"⟩ :: repetitive.parameters.drop 2

/-- The binding of the repetitive declaration at the root, whose stem is `x`. -/
def repetitiveBinding : Binding where
  source := .external "outside"
  events := [.createDocument, .deleteDocument]
  stem := "x:"
  parameters := ⟨[("depth", "1"), ("title", "a")]⟩
  declaredAt := .root

/-- The repetitive declaration stands for its binding, and it does in the other order, too. -/
theorem bindingFor_iff_declares_repetitive :
    repetitive.bindingFor .root .root "x" = .ok repetitiveBinding ∧
      repetitive.Declares .root "x" repetitiveBinding ∧ repetitive.Reorders repetitiveMixed ∧
      SameButOrder (.ok repetitiveBinding) (repetitiveMixed.bindingFor .root .root "x") := by
  have hbind : repetitive.bindingFor .root .root "x" = .ok repetitiveBinding := by
    have hbind : repetitive.bind .root "x" = .ok repetitiveBinding := by decide +kernel
    rw [bindingFor, hbind]
    rfl
  have hmixed : repetitive.Reorders repetitiveMixed := by
    have hne : "depth" ≠ "title" := by decide
    exact .swap (some "QueryTrigger") [] (repetitive.parameters.drop 2) hne
  obtain ⟨-, hdeclares, -, hsame⟩ := bindingFor_iff_declares repetitive .root .root "x"
  refine ⟨hbind, hdeclares _ hbind, hmixed, ?_⟩
  rw [← hbind]
  exact hsame _ hmixed

end TriggerDeclaration

end DocTree
