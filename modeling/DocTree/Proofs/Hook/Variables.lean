import DocTree.Hook.Variables
import DocTree.Proofs.Hook.Parameters

/-!
# The variables of a hook

A hook whose program itself runs is told about the event through variables. The parameters of its
binding are variables, too, and are declared last, so that a parameter with the name of an event
variable takes its place. The names that mean something to the declaration itself are never handed
to the program, which protects one of the event variables, `event`, and none of the others.

## Main definitions

* `Subjects.told?`: what a hook is told under a name.

## Main results

* `Variables.get?_declareAll`: of several declarations of a name the last one counts.
* `Variables.get?_ofEvent`: a variable has the value of the parameter with its name, or else the
  value that the hook is told.
* `Variables.get?_ofEvent_eq_told_iff`: when a variable has the value that the hook is told.
* `Variables.not_get?_ofEvent_eq_told`: that is not always so.
-/

namespace DocTree

/-- What a hook is told about an event under a name. All names but `uri` and `new-uri` have an older
form, under which the same is told; the older form of `uri` is for events of documents only. -/
def Subjects.told? (subjects : Subjects) (event : Event) (phase : Phase) (name : String) :
    Option Value :=
  if name = "type" ∨ name = "eventType" then some (.text phase.name)
  else if name = "event" ∨ name = "triggerEvent" then some (.text event.name)
  else if name = "collection" ∨ name = "collectionName" then some (subjects.collection event)
  else if name = "uri" then some (.uri subjects.first)
  else if name = "new-uri" then some (.ofPath? subjects.second)
  else if name = "documentName" ∧ ¬event.concernsCollection then some (.uri subjects.first)
  else none

namespace Variables

/-! ### Declarations -/

/-- Of several declarations of a name the last one counts. -/
theorem get?_declareAll (vars : Variables) (stem : String) (declarations : List (String × Value))
    (name : String) :
    (vars.declareAll stem declarations).get? (stem ++ name) =
      (Table.find? name declarations.reverse).or (vars.get? (stem ++ name)) := by
  induction declarations generalizing vars with
  | nil => rfl
  | cons first rest ih =>
    have hstep : vars.declareAll stem (first :: rest) =
        declareAll (vars.set (stem ++ first.1) first.2) stem rest := rfl
    rw [hstep, ih, Table.get?_set, List.reverse_cons, Table.find?_append, Option.or_assoc]
    congr 1
    -- Two names are the same exactly if they are after the stem.
    by_cases hfirst : first.1 = name
    · simp [Table.find?, hfirst]
    · simp [Table.find?, hfirst]

/-- Every name that is declared starts with the stem. -/
theorem exists_of_get?_declareAll (vars : Variables) {stem key : String}
    {declarations : List (String × Value)} {value : Value}
    (h : (vars.declareAll stem declarations).get? key = some value) :
    (∃ name, key = stem ++ name) ∨ vars.get? key = some value := by
  induction declarations generalizing vars with
  | nil => exact .inr h
  | cons first rest ih =>
    obtain hstem | hold := ih (vars.set (stem ++ first.1) first.2) h
    · exact .inl hstem
    · rw [Table.get?_set] at hold
      split at hold
      next heq => exact .inl ⟨first.1, heq.symm⟩
      next => exact .inr hold

/-! ### The variables of an event -/

/-- No name is declared twice for an event. -/
theorem nodup_eventDeclarations (event : Event) (phase : Phase) (subjects : Subjects) :
    ((eventDeclarations event phase subjects).map Prod.fst).Nodup := by
  unfold eventDeclarations
  split <;> simp

/-- The declarations for an event hold what the hook is told. -/
theorem find?_eventDeclarations (event : Event) (phase : Phase) (subjects : Subjects)
    (name : String) :
    Table.find? name (eventDeclarations event phase subjects) =
      subjects.told? event phase name := by
  have hdocument : Table.find? name
      (if event.concernsCollection then [] else [("documentName", Value.uri subjects.first)]) =
        if name = "documentName" ∧ ¬event.concernsCollection then some (.uri subjects.first)
        else none := by
    by_cases hevent : event.concernsCollection
    · simp [hevent, Table.find?]
    · simp [hevent, Table.find?, eq_comm]
  rw [eventDeclarations, Table.find?_append, hdocument, Subjects.told?]
  -- The names that are declared for every event are different, so each is found at its own place.
  by_cases hname : name ∈ ["type", "event", "collection", "uri", "new-uri", "eventType",
      "triggerEvent", "collectionName"]
  · simp only [List.mem_cons, List.not_mem_nil, or_false] at hname
    rcases hname with rfl | rfl | rfl | rfl | rfl | rfl | rfl | rfl <;> simp [Table.find?]
  · rw [Table.find?_eq_none_iff.2 (by simpa using hname), Option.none_or]
    simp only [List.mem_cons, List.not_mem_nil, or_false, not_or] at hname
    simp [hname]

/-- The parameters of a binding are declared with the values that its declaration gives first. -/
theorem find?_parameterDeclarations {declaration : TriggerDeclaration} {path collection : Path}
    {stem : String} {binding : Binding}
    (h : declaration.bindingFor path collection stem = .ok binding) (name : String) :
    Table.find? name (parameterDeclarations binding).reverse =
      (declaration.ownValue? name).map .text := by
  have hparameters := TriggerDeclaration.parameters_of_bindingFor h
  have hnodup : ((parameterDeclarations binding).map Prod.fst).Nodup := by
    rw [parameterDeclarations, hparameters, List.map_map]
    exact declaration.nodup_parameterTable
  rw [Table.find?_reverse hnodup, parameterDeclarations, Table.find?_map, hparameters,
    ← declaration.get?_parameterTable, Table.get?]

variable {declaration : TriggerDeclaration} {path collection : Path} {stem : String}
  {binding : Binding}

/-- A variable has the value of the parameter with its name, or else the value that the hook is
told. -/
theorem get?_ofEvent (h : declaration.bindingFor path collection stem = .ok binding)
    (event : Event) (phase : Phase) (source : Path) (destination : Option Path) (name : String) :
    (ofEvent binding event phase source destination).get? (binding.stem ++ name) =
      ((declaration.ownValue? name).map Value.text).or
        ((Subjects.of event phase source destination).told? event phase name) := by
  rw [ofEvent, get?_declareAll, get?_declareAll, find?_parameterDeclarations h,
    Table.find?_reverse (nodup_eventDeclarations event phase _), find?_eventDeclarations]
  simp [Table.get?, Table.empty, Table.find?]

/-- A variable that is not a parameter of the declaration has the value that the hook is told. -/
theorem get?_ofEvent_of_free (h : declaration.bindingFor path collection stem = .ok binding)
    (event : Event) (phase : Phase) (source : Path) (destination : Option Path) {name : String}
    (hfree : declaration.ownValue? name = none) :
    (ofEvent binding event phase source destination).get? (binding.stem ++ name) =
      (Subjects.of event phase source destination).told? event phase name := by
  rw [get?_ofEvent h, hfree, Option.map_none, Option.none_or]

/-- Every variable of an event has a name that starts with the stem of the binding. -/
theorem exists_of_get?_ofEvent {event : Event} {phase : Phase} {source : Path}
    {destination : Option Path} {key : String} {value : Value}
    (h : (ofEvent binding event phase source destination).get? key = some value) :
    ∃ name, key = binding.stem ++ name := by
  obtain hstem | h := exists_of_get?_declareAll _ h
  · exact hstem
  obtain hstem | h := exists_of_get?_declareAll _ h
  · exact hstem
  · cases h

/-! ### A parameter that takes the place of a variable -/

/-- A trigger with a parameter under the name of an event variable, and with another one that is
given twice. -/
def misleading : TriggerDeclaration where
  className := none
  parameters := [⟨"event", "create-document"⟩, ⟨"query", "audit"⟩, ⟨"uri", "/db/elsewhere"⟩,
    ⟨"threshold", "5"⟩, ⟨"threshold", "6"⟩]

/-- The binding of this trigger. -/
def misleadingBinding : Binding where
  source := .inline "audit"
  events := [.createDocument]
  stem := defaultStem
  parameters := ⟨[("uri", "/db/elsewhere"), ("threshold", "5")]⟩
  declaredAt := .root

/-- A document in the root collection. -/
def page : Path :=
  (Path.root.child? "page.xml".toList).getD .root

theorem bindingFor_misleading (path : Path) :
    misleading.bindingFor path .root defaultStem = .ok misleadingBinding := by
  have hbind : misleading.bind .root defaultStem = .ok misleadingBinding := by decide +kernel
  rw [TriggerDeclaration.bindingFor, hbind]
  rfl

/-- What a hook learns from the variables of an event. A variable has the value that the hook is
told unless the declaration gives another value under its name, which it cannot do for `event`.
Every parameter has the value that is given first for it, and there are no other variables. -/
theorem get?_ofEvent_eq_told_iff (h : declaration.bindingFor path collection stem = .ok binding)
    (event : Event) (phase : Phase) (source : Path) (destination : Option Path) :
    let vars := ofEvent binding event phase source destination
    let told? := (Subjects.of event phase source destination).told? event phase
    (∀ name value, told? name = some value →
      (vars.get? (binding.stem ++ name) = some value ↔
        ∀ own, declaration.ownValue? name = some own → .text own = value)) ∧
    vars.get? (binding.stem ++ "event") = some (.text event.name) ∧
    (∀ name own, declaration.ownValue? name = some own →
      vars.get? (binding.stem ++ name) = some (.text own)) ∧
    ∀ key value, vars.get? key = some value → ∃ name, key = binding.stem ++ name ∧
      (told? name = some value ∨ ∃ own, declaration.ownValue? name = some own ∧
        value = .text own) := by
  intro vars told?
  have hget : ∀ name, vars.get? (binding.stem ++ name) =
      ((declaration.ownValue? name).map Value.text).or (told? name) :=
    get?_ofEvent h event phase source destination
  refine ⟨?_, ?_, ?_, ?_⟩
  · intro name value htold
    rw [hget, htold]
    cases declaration.ownValue? name with
    | none => simp
    | some own => simp
  · -- The name is reserved, so that no parameter has it.
    have hreserved : declaration.ownValue? "event" = none := rfl
    rw [hget, hreserved]
    rfl
  · intro name own hown
    rw [hget, hown]
    rfl
  · intro key value hvalue
    obtain ⟨name, rfl⟩ := exists_of_get?_ofEvent hvalue
    refine ⟨name, rfl, ?_⟩
    rw [hget] at hvalue
    cases hown : declaration.ownValue? name with
    | none => exact .inl (by simpa [hown] using hvalue)
    | some own => exact .inr ⟨own, rfl, by simpa [hown, eq_comm] using hvalue⟩

/-- A hook that runs before a document is created is told the phase and the event, and the first of
two values of a parameter, but not which document it is. -/
theorem get?_ofEvent_misleadingBinding :
    let vars := ofEvent misleadingBinding .createDocument .before page none
    vars.get? (misleadingBinding.stem ++ "type") = some (.text "prepare") ∧
      vars.get? (misleadingBinding.stem ++ "event") = some (.text "create-document") ∧
      vars.get? (misleadingBinding.stem ++ "threshold") = some (.text "5") ∧
      vars.get? (misleadingBinding.stem ++ "uri") ≠ some (.uri page) := by
  obtain ⟨htold, hevent, hown, -⟩ :=
    get?_ofEvent_eq_told_iff (bindingFor_misleading .root) .createDocument .before page none
  refine ⟨?_, hevent, hown "threshold" "5" (by decide), ?_⟩
  · have hfree : misleading.ownValue? "type" = none := by decide
    refine (htold "type" (.text "prepare") rfl).2 ?_
    simp [hfree]
  · intro huri
    have hsame := (htold "uri" (.uri page) rfl).1 huri "/db/elsewhere" (by decide)
    cases hsame

/-- A variable of an event need not have the value that the hook is told. -/
theorem not_get?_ofEvent_eq_told :
    ¬∀ (declaration : TriggerDeclaration) (path collection : Path) (stem : String)
      (binding : Binding), declaration.bindingFor path collection stem = .ok binding →
      ∀ (event : Event) (phase : Phase) (source : Path) (destination : Option Path) (name : String)
        (value : Value),
        (Subjects.of event phase source destination).told? event phase name = some value →
        (ofEvent binding event phase source destination).get? (binding.stem ++ name) =
          some value := by
  intro htold
  have huri := htold _ _ _ _ _ (bindingFor_misleading .root) .createDocument .before page none "uri"
    (.uri page) rfl
  have hforged : (ofEvent misleadingBinding .createDocument .before page none).get?
      (misleadingBinding.stem ++ "uri") = some (.text "/db/elsewhere") := by
    rw [get?_ofEvent (bindingFor_misleading .root)]
    rfl
  rw [hforged] at huri
  cases huri

end Variables

end DocTree
