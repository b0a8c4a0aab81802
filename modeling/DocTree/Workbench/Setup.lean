import DocTree.Workbench.Basic

/-!
# Setting up a database

Writing collections, documents and configuration straight to the store, so that no hooks run.

## Main definitions

* `Database.makeCollection` and `Database.putDocument`: write to the store.
* `Database.configure`: writes the configuration document of a collection.
* `TriggerDeclaration.ofProgram`: a declaration step by step.
-/

namespace DocTree

namespace Database

/-- Creates a collection and what is missing above it, in a transaction of its own. -/
def makeCollection (database : Database) (path : Path) : Except StoreError Unit × Database :=
  let missing := path.ancestors.filter fun level => !database.store.contains level
  let (transaction, store) := database.store.beginTransaction
  match Resolver.createCollections transaction store missing with
  | (.error e, store) => (.error e, { database with store })
  | (.ok (), store) =>
    match store.commit transaction with
    | .ok store => (.ok (), { database with store })
    | .error e => (.error e, { database with store })

/-- Stores a document in a transaction of its own, whether or not it exists. -/
def storeDocument (database : Database) (path : Path) (content : Content) :
    Except StoreError Unit × Database :=
  let mutation : Mutation :=
    if database.store.contains path then .updateDocument path content
    else .createDocument path content
  let (transaction, store) := database.store.beginTransaction
  let result := do
    let store ← store.perform transaction mutation
    store.commit transaction
  match result with
  | .ok store => (.ok (), { database with store })
  | .error e => (.error e, { database with store })

/-- Stores a document, and creates its parent with what is missing above it. -/
def putDocument (database : Database) (path : Path) (content : Content) :
    Except StoreError Unit × Database :=
  match path.parent? with
  | none => database.storeDocument path content
  | some parent =>
    match database.makeCollection parent with
    | (.error e, database) => (.error e, database)
    | (.ok (), database) => database.storeDocument path content

/-- Writes the configuration document of a collection and drops the configuration that this makes
obsolete from the cache. The answer counts the dropped configurations. -/
def configure (database : Database) (settings : Settings) (collection : Path)
    (content : Content) : Except StoreError Nat × Database :=
  match settings.documentFor? collection with
  | none =>
    (.error (.invalidPath
      ((settings.configRoot.append collection).text ++ "/" ++ settings.fileName) .badSegment),
      database)
  | some path =>
    match database.putDocument path content with
    | (.error e, database) => (.error e, database)
    | (.ok (), database) =>
      let (count, resolver) := database.resolver.invalidateFor settings path none
      (.ok count, { database with resolver })

end Database

namespace TriggerDeclaration

/-- The declaration without class and parameters. -/
def empty : TriggerDeclaration :=
  ⟨none, []⟩

/-- Adds a parameter. -/
def addParameter (declaration : TriggerDeclaration) (name value : String) : TriggerDeclaration :=
  { declaration with parameters := declaration.parameters ++ [⟨name, value⟩] }

/-- A declaration that names its program. -/
def ofProgram : ProgramSource → TriggerDeclaration
  | .inline program => empty.addParameter "query" program
  | .external location => empty.addParameter "url" location

/-- Lists events. -/
def addEvents (declaration : TriggerDeclaration) (events : String) : TriggerDeclaration :=
  declaration.addParameter "event" events

/-- Gives the variables another stem. -/
def setStem (declaration : TriggerDeclaration) (stem : String) : TriggerDeclaration :=
  declaration.addParameter "bindingPrefix" stem

/-- Gives the class. -/
def withClass (declaration : TriggerDeclaration) (name : String) : TriggerDeclaration :=
  { declaration with className := some name }

end TriggerDeclaration

/-- The database that scripted hooks are tried on: new, with its configuration root created unless
that is left for later. -/
def Database.forWorkbench (settings : Settings) (withRoot : Bool) : Database :=
  let database := Database.initial settings
  if withRoot then (database.ensureRoot settings).2 else database

end DocTree
