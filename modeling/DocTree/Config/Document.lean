import DocTree.Config.Error
import DocTree.Json.Writer
import DocTree.Hook.Binding

/-!
# Configuration documents

The document that configures a collection: index rules, and declarations of triggers. It is
written as JSON.

## Main definitions

* `ConfigDocument`: the contents of a document.
* `ConfigDocument.toBytes` and `ConfigDocument.parse`: its written form.
* `TriggerDeclaration.bindingFor`: the binding that a declaration stands for.
-/

namespace DocTree

/-- The kinds of indexes. -/
inductive IndexKind where
  /-- An index over ordered values. -/
  | range
  /-- An index over words. -/
  | fullText
  /-- An index over runs of characters. -/
  | nGram
  deriving DecidableEq, Repr

/-- A rule that asks for an index. -/
structure IndexRule where
  /-- The nodes that the index covers. -/
  path : String
  /-- The kind of the index. -/
  kind : IndexKind
  deriving DecidableEq, Repr

/-- A named value of a trigger declaration. -/
structure Parameter where
  /-- The name. -/
  name : String
  /-- The value. -/
  value : String
  deriving DecidableEq, Repr

/-- A trigger as it is declared. -/
structure TriggerDeclaration where
  /-- The class of the trigger, if it is given. -/
  className : Option String
  /-- The parameters in order. -/
  parameters : List Parameter
  deriving DecidableEq, Repr

/-- The contents of a configuration document. -/
structure ConfigDocument where
  /-- The index rules in order. -/
  index : List IndexRule
  /-- The trigger declarations in order. -/
  triggers : List TriggerDeclaration
  deriving DecidableEq, Repr

/-! ### Written form -/

namespace IndexKind

/-- The name under which a kind is written. -/
def name : IndexKind → String
  | range => "range"
  | fullText => "fulltext"
  | nGram => "ngram"

/-- The kind with a name; two kinds have a second spelling. -/
def ofName? (name : String) : Option IndexKind :=
  if name = "range" then some range
  else if name = "fulltext" ∨ name = "full-text" then some fullText
  else if name = "ngram" ∨ name = "n-gram" then some nGram
  else none

end IndexKind

namespace IndexRule

/-- A rule as a record. -/
def toJson (rule : IndexRule) : Json :=
  .object [(some "path", .ofText rule.path), (some "kind", .ofText rule.kind.name)]

/-- Reads a rule. -/
def ofJson? (json : Json) : Option IndexRule := do
  match ← json.fields? ["path", "kind"] false with
  | [some path, some kind] =>
    return { path := ← path.text?, kind := ← IndexKind.ofName? (← kind.choice?) }
  | _ => none

end IndexRule

namespace Parameter

/-- A parameter as a record. -/
def toJson (parameter : Parameter) : Json :=
  .object [(some "name", .ofText parameter.name), (some "value", .ofText parameter.value)]

/-- Reads a parameter. -/
def ofJson? (json : Json) : Option Parameter := do
  match ← json.fields? ["name", "value"] false with
  | [some name, some value] => return { name := ← name.text?, value := ← value.text? }
  | _ => none

end Parameter

/-- Reads the items of an array that may be missing. -/
def itemsOrNone? {α : Type} (ofJson? : Json → Option α) : Option Json → Option (List α)
  | none => some []
  | some json => do (← json.items?).mapM ofJson?

namespace TriggerDeclaration

/-- A declaration as a record. The class is written only if it is given. -/
def toJson (declaration : TriggerDeclaration) : Json :=
  .object <|
    (declaration.className.map fun name => (some "class", Json.ofText name)).toList
    ++ [(some "parameters", .array (declaration.parameters.map Parameter.toJson))]

/-- Reads the class of a trigger; it may be missing or `null`. -/
def classOfJson? : Option Json → Option (Option String)
  | none => some none
  | some .null => some none
  | some json => json.text?.map some

/-- Reads a declaration. -/
def ofJson? (json : Json) : Option TriggerDeclaration := do
  match ← json.fields? ["class", "parameters"] false with
  | [className, parameters] =>
    return {
      className := ← classOfJson? className
      parameters := ← itemsOrNone? Parameter.ofJson? parameters }
  | _ => none

end TriggerDeclaration

namespace ConfigDocument

/-- A document as a record. -/
def toJson (document : ConfigDocument) : Json :=
  .object [(some "index", .array (document.index.map IndexRule.toJson)),
    (some "triggers", .array (document.triggers.map TriggerDeclaration.toJson))]

/-- Reads a document. -/
def ofJson? (json : Json) : Option ConfigDocument := do
  match ← json.fields? ["index", "triggers"] false with
  | [index, triggers] =>
    return {
      index := ← itemsOrNone? IndexRule.ofJson? index
      triggers := ← itemsOrNone? TriggerDeclaration.ofJson? triggers }
  | _ => none

/-- The bytes of a document, laid out for reading. -/
def toBytes (document : ConfigDocument) : Content :=
  document.toJson.toBytes .indented

/-- Reads the bytes of the document stored at a path. -/
def parse (path : Path) (bytes : Content) : Except ConfigError ConfigDocument :=
  match Json.ofBytes? bytes >>= ofJson? with
  | some document => .ok document
  | none => .error (.invalid path .malformed)

end ConfigDocument

/-! ### From declarations to bindings -/

namespace TriggerDeclaration

/-- The only class of triggers. -/
def knownClass : String := "QueryTrigger"

/-- The parameters with a meaning of their own; all others are handed to the program. -/
def reservedNames : List String :=
  ["event", "query", "url", "bindingPrefix"]

/-- The values given under a name, in order. -/
def valuesOf (declaration : TriggerDeclaration) (name : String) : List String :=
  declaration.parameters.filterMap fun parameter =>
    if parameter.name = name then some parameter.value else none

/-- The parameters that are handed to the program. -/
def userParameters (declaration : TriggerDeclaration) : List Parameter :=
  declaration.parameters.filter fun parameter => !reservedNames.contains parameter.name

/-- The class is not given, or it is the known one. -/
def checkClass (declaration : TriggerDeclaration) : Except ConfigProblem Unit :=
  match declaration.className with
  | some name => if name = knownClass then .ok () else .error (.unsupportedClass name)
  | none => .ok ()

/-- The events that a declaration lists. -/
def events (declaration : TriggerDeclaration) : Except ConfigProblem (List Event) :=
  ((declaration.valuesOf "event").mapM fun value =>
    (Event.readList value.toList).mapError fun name =>
      ConfigProblem.unknownEvent (String.ofList name)).map List.flatten

/-- Where the program comes from. A location takes precedence over a text. -/
def source (declaration : TriggerDeclaration) : Except ConfigProblem ProgramSource :=
  match (declaration.valuesOf "url").head?, (declaration.valuesOf "query").head? with
  | some location, _ => .ok (.external location)
  | none, some program => .ok (.inline program)
  | none, none => .error .missingSource

/-- The binding that a declaration in the configuration of a collection stands for. -/
def bind (declaration : TriggerDeclaration) (collection : Path) (stem : String) :
    Except ConfigProblem Binding := do
  declaration.checkClass
  let events ← declaration.events
  let source ← declaration.source
  let binding := ((Binding.new collection source).addEvents events).setStem stem
  -- The declaration's own stem replaces the default one, unless it is blank.
  let binding := match (declaration.valuesOf "bindingPrefix").head? with
    | some own => binding.setStem own
    | none => binding
  return declaration.userParameters.foldl
    (fun binding parameter => binding.addParameter parameter.name parameter.value) binding

/-- The binding that a declaration stands for; problems are reported for the document at `path`. -/
def bindingFor (declaration : TriggerDeclaration) (path collection : Path) (stem : String) :
    Except ConfigError Binding :=
  (declaration.bind collection stem).mapError (.invalid path)

end TriggerDeclaration

/-- The bindings that a document in the configuration of a collection declares. -/
def ConfigDocument.bindings (document : ConfigDocument) (path collection : Path) (stem : String) :
    Except ConfigError (List Binding) :=
  document.triggers.mapM fun declaration => declaration.bindingFor path collection stem

end DocTree
