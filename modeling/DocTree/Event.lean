import DocTree.Store.Mutation
import DocTree.Text.Pieces

/-!
# Events and phases

The events that mutations fire, the names under which configuration documents list them, and the
two phases in which hooks run.

## Main definitions

* `Event`: one event for each kind of mutation, with its name `Event.name`.
* `Mutation.event`: the event that a mutation fires.
* `Event.read` and `Event.readList`: reading one event name, and a list of them.
* `Phase`: before or after the change.
-/

namespace DocTree

/-- What happened, or is about to happen, in the hierarchy. -/
inductive Event where
  /-- A collection is created. -/
  | createCollection
  /-- A collection is touched. -/
  | updateCollection
  /-- A collection is copied. -/
  | copyCollection
  /-- A collection is moved. -/
  | moveCollection
  /-- A collection is deleted. -/
  | deleteCollection
  /-- A document is created. -/
  | createDocument
  /-- A document is replaced. -/
  | updateDocument
  /-- A document is copied. -/
  | copyDocument
  /-- A document is moved. -/
  | moveDocument
  /-- A document is deleted. -/
  | deleteDocument
  deriving DecidableEq, Repr

namespace Event

/-- Every event, those of collections first. -/
def all : List Event :=
  [createCollection, updateCollection, copyCollection, moveCollection, deleteCollection,
    createDocument, updateDocument, copyDocument, moveDocument, deleteDocument]

/-- No event is missing from the list of all events. -/
@[simp]
theorem mem_all (event : Event) : event ∈ all := by
  cases event <;> decide

/-- The name of an event. -/
def name : Event → String
  | createCollection => "create-collection"
  | updateCollection => "update-collection"
  | copyCollection => "copy-collection"
  | moveCollection => "move-collection"
  | deleteCollection => "delete-collection"
  | createDocument => "create-document"
  | updateDocument => "update-document"
  | copyDocument => "copy-document"
  | moveDocument => "move-document"
  | deleteDocument => "delete-document"

/-- The older names of three document events. -/
def legacyNames : List (String × Event) :=
  [("store", createDocument), ("update", updateDocument), ("remove", deleteDocument)]

/-- Whether the event concerns a collection. -/
def concernsCollection : Event → Bool
  | createCollection | updateCollection | copyCollection | moveCollection | deleteCollection =>
    true
  | _ => false

/-- Whether the event leads from one path to another. -/
def isTransfer : Event → Bool
  | copyCollection | moveCollection | copyDocument | moveDocument => true
  | _ => false

/-- The event with a name in lower case, older names included. -/
def ofName? (name : List Char) : Option Event :=
  match legacyNames.find? fun legacy => legacy.1.toList = name with
  | some legacy => some legacy.2
  | none => all.find? fun event => event.name.toList = name

/-- Reads an event name. Blank characters around it and the case of ASCII letters do not matter;
an unknown name is reported as it was spelled. -/
def read (text : List Char) : Except (List Char) Event :=
  let word := Text.trim text
  match ofName? (Text.lower word) with
  | some event => .ok event
  | none => .error word

/-- Whether a character separates the names of a list. -/
def isSeparator (c : Char) : Bool :=
  c == ',' || Text.isBlank c

/-- Reads a list of event names separated by commas and blank characters. The error is the first
unknown name. -/
def readList (text : List Char) : Except (List Char) (List Event) :=
  (Text.pieces isSeparator text).mapM read

end Event

/-- The event that a mutation fires. -/
def Mutation.event : Mutation → Event
  | createCollection _ => .createCollection
  | updateCollection _ => .updateCollection
  | copyCollection _ _ => .copyCollection
  | moveCollection _ _ => .moveCollection
  | deleteCollection _ => .deleteCollection
  | createDocument _ _ => .createDocument
  | updateDocument _ _ => .updateDocument
  | copyDocument _ _ => .copyDocument
  | moveDocument _ _ => .moveDocument
  | deleteDocument _ => .deleteDocument

/-- When a hook runs. -/
inductive Phase where
  /-- Before the change, which a failure prevents. -/
  | before
  /-- After the change, when a failure is only reported. -/
  | after
  deriving DecidableEq, Repr

namespace Phase

/-- The name under which hooks and messages know the phase. -/
def name : Phase → String
  | before => "prepare"
  | after => "finish"

/-- The word that starts the name of a function called in the phase. -/
def word : Phase → String
  | before => "before"
  | after => "after"

end Phase

end DocTree
