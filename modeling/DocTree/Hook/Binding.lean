import DocTree.Table
import DocTree.Event

/-!
# Trigger bindings

A binding says which hook program runs for the mutations of a collection and all collections below
it, and what the program is told.

## Main definitions

* `ProgramSource`: where a program comes from.
* `Binding`: a binding, built by `Binding.new`, `Binding.addEvents`, `Binding.setStem` and
  `Binding.addParameter`.
* `Binding.mode`: how a binding runs for an event.
-/

namespace DocTree

/-- Where the text of a hook program comes from. -/
inductive ProgramSource where
  /-- It is given in the configuration. -/
  | inline (program : String)
  /-- It is kept at a location that the evaluator knows how to read. -/
  | external (location : String)
  deriving DecidableEq, Repr

/-- How a source is named in messages: by its location, if it has one. -/
def ProgramSource.display : ProgramSource → String
  | inline _ => "<inline>"
  | external location => location

/-- A stem without blanks around it and with a colon at its end. The names of a hook's variables
start with the stem of its binding. -/
def normalizeStem (stem : String) : String :=
  -- A stem that ends with a colon already gets no second one.
  let word := Text.trim stem.toList
  String.ofList (if word.getLast? = some ':' then word else word ++ [':'])

/-- The stem of a binding that asks for no other. -/
def defaultStem : String := "local:"

/-- The declaration that a hook program runs on the events of a collection and of all collections
below it. -/
structure Binding where
  /-- Where the program comes from. -/
  source : ProgramSource
  /-- The events for which the program itself runs, in the order of `Event.all`. For every other
  event a function of the program is called. -/
  events : List Event
  /-- What the names of the program's variables start with. -/
  stem : String
  /-- The values handed to the program under names of the user's choice. -/
  parameters : Table String String
  /-- The collection whose configuration holds the declaration. -/
  declaredAt : Path
  deriving DecidableEq, Repr

/-- How a binding runs for an event. -/
inductive RunMode where
  /-- The program itself runs. -/
  | event
  /-- The function that the program declares for the event is called. -/
  | function
  deriving DecidableEq, Repr

namespace Binding

/-- A binding that lists no events. -/
def new (declaredAt : Path) (source : ProgramSource) : Binding where
  source
  events := []
  stem := defaultStem
  parameters := .empty
  declaredAt

/-- Lists further events. -/
def addEvents (binding : Binding) (events : List Event) : Binding :=
  { binding with
    events := Event.all.filter fun event =>
      binding.events.contains event || events.contains event }

/-- Gives the variables another stem; a blank one is ignored. -/
def setStem (binding : Binding) (stem : String) : Binding :=
  if (Text.trim stem.toList).isEmpty then binding
  else { binding with stem := normalizeStem stem }

/-- Adds a parameter; the first value given for a name stays. -/
def addParameter (binding : Binding) (name value : String) : Binding :=
  { binding with parameters := binding.parameters.setNew name value }

/-- Whether the binding lists no events, so that its program itself never runs. -/
def listsNoEvent (binding : Binding) : Bool :=
  binding.events.isEmpty

/-- How the binding runs for an event. -/
def mode (binding : Binding) (event : Event) : RunMode :=
  if binding.events.contains event then .event else .function

end Binding

end DocTree
