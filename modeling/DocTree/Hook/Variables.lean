import DocTree.Hook.Binding

/-!
# What hooks are told

The variables that a hook program sees, and the function that is called in it.

## Main definitions

* `Value` and `Variables`: values and the variables that hold them.
* `Subjects`: the resources that a hook is told about first and second.
* `Variables.ofEvent` and `Variables.ofParameters`: the variables of a hook in either mode.
* `HookCall.ofEvent`: the function called for an event.
-/

namespace DocTree

/-- A value that a hook program is given. -/
inductive Value where
  /-- A text. -/
  | text (words : String)
  /-- The path of a resource. -/
  | uri (path : Path)
  /-- The empty sequence. -/
  | empty
  deriving DecidableEq, Repr

namespace Value

/-- The text of a value; the empty sequence has none. -/
def text? : Value → Option String
  | text words => some words
  | uri path => some path.text
  | empty => none

/-- The value of a path that may be missing. -/
def ofPath? : Option Path → Value
  | some path => uri path
  | none => empty

end Value

/-- The variables of a hook program by name, in the order in which they were declared first. -/
abbrev Variables := Table String Value

/-- The resources that a hook is told about. -/
structure Subjects where
  /-- The resource it is told about first. -/
  first : Path
  /-- The resource it is told about second. -/
  second : Option Path
  deriving DecidableEq, Repr

namespace Subjects

/-- The resources of a mutation in a phase. Before the change the source comes first and the
destination second. After a copy or move the destination, which exists now, comes first and the
source second. -/
def of (event : Event) (phase : Phase) (source : Path) (destination : Option Path) :
    Subjects :=
  match phase, destination with
  | .before, _ => ⟨source, destination⟩
  | .after, some destination =>
    if event.isTransfer then ⟨destination, some source⟩ else ⟨source, none⟩
  | .after, none => ⟨source, none⟩

/-- The collection that a hook is told about: the first resource if it is a collection, else its
parent. -/
def collection (subjects : Subjects) (event : Event) : Value :=
  if event.concernsCollection then .uri subjects.first else .ofPath? subjects.first.parent?

end Subjects

namespace Variables

/-- Declares variables whose names start with a stem, one after another. -/
def declareAll (vars : Variables) (stem : String) (declarations : List (String × Value)) :
    Variables :=
  declarations.foldl
    (fun vars declaration => vars.set (stem ++ declaration.1) declaration.2) vars

/-- The parameters of a binding as declarations. -/
def parameterDeclarations (binding : Binding) : List (String × Value) :=
  binding.parameters.entries.map fun parameter => (parameter.1, .text parameter.2)

/-- What a hook is told about an event, under the current names and under their older forms. -/
def eventDeclarations (event : Event) (phase : Phase) (subjects : Subjects) :
    List (String × Value) :=
  [("type", .text phase.name), ("event", .text event.name),
    ("collection", subjects.collection event), ("uri", .uri subjects.first),
    ("new-uri", .ofPath? subjects.second), ("eventType", .text phase.name),
    ("triggerEvent", .text event.name), ("collectionName", subjects.collection event)]
  ++ if event.concernsCollection then [] else [("documentName", .uri subjects.first)]

/-- The variables of a hook whose function is called: one for each parameter. -/
def ofParameters (binding : Binding) : Variables :=
  declareAll .empty binding.stem (parameterDeclarations binding)

/-- The variables of a hook whose program itself runs: what it is told about the event, then one
for each parameter. -/
def ofEvent (binding : Binding) (event : Event) (phase : Phase) (source : Path)
    (destination : Option Path) : Variables :=
  let subjects := Subjects.of event phase source destination
  -- The parameters come last: one with the name of an event variable replaces it.
  declareAll (declareAll .empty binding.stem (eventDeclarations event phase subjects))
    binding.stem (parameterDeclarations binding)

end Variables

/-- A function to be called in a hook program. -/
structure HookCall where
  /-- The namespace of the function. -/
  namespaceName : String
  /-- Its name in the namespace. -/
  localName : String
  /-- The arguments in order. -/
  arguments : List Value
  deriving DecidableEq, Repr

namespace HookCall

/-- The namespace of the functions that hook programs declare for events. -/
def eventNamespace : String := "http://arbordb.dev/ns/trigger"

/-- The function called for an event. Before the change it is given the source and then the
destination, afterwards the destination and then the source. -/
def ofEvent (event : Event) (phase : Phase) (source : Path) (destination : Option Path) :
    HookCall where
  namespaceName := eventNamespace
  localName := phase.word ++ "-" ++ event.name
  arguments :=
    match phase, destination with
    | .before, some destination => [.uri source, .uri destination]
    | .after, some destination => [.uri destination, .uri source]
    | _, none => [.uri source]

end HookCall

end DocTree
