import DocTree.Config.Document
import DocTree.Config.Settings
import DocTree.Store.Tree

/-!
# Effective configuration

The configuration in effect for a collection: what its own configuration document and those of all
collections above it declare, the outermost first.

## Main definitions

* `EffectiveConfig`: an effective configuration.
* `EffectiveConfig.load`: determines it from the tree.
* `Path.governingCollection`: the collection whose configuration governs a path.
-/

namespace DocTree

/-- The collection whose configuration governs a path: its parent, or the path itself if it has
none. -/
def Path.governingCollection (path : Path) : Path :=
  path.parent?.getD path

/-- The configuration in effect for a collection. -/
structure EffectiveConfig where
  /-- The collection. -/
  collection : Path
  /-- The index rules, the outermost first. -/
  index : List IndexRule
  /-- The trigger bindings, the outermost first. -/
  bindings : List Binding
  deriving DecidableEq, Repr

/-- What the configuration document of one collection declares. -/
structure ConfigLevel where
  /-- Its index rules. -/
  index : List IndexRule
  /-- Its trigger bindings. -/
  bindings : List Binding
  deriving DecidableEq, Repr

namespace ConfigLevel

/-- The level of a collection without a configuration document. -/
def empty : ConfigLevel :=
  ⟨[], []⟩

/-- What the configuration document of a collection declares, if there is one. -/
def load (settings : Settings) (tree : Tree) (collection : Path) :
    Except ConfigError ConfigLevel :=
  match settings.documentFor? collection with
  | none => .ok empty
  | some path =>
    match tree.readConfig path with
    | .error cause => .error (.storage cause)
    -- Most collections have no document of their own.
    | .ok none => .ok empty
    | .ok (some bytes) => do
      let document ← ConfigDocument.parse path bytes
      let bindings ← document.bindings path collection settings.bindingStem
      return ⟨document.index, bindings⟩

end ConfigLevel

namespace EffectiveConfig

/-- A configuration without rules and bindings. -/
def empty (collection : Path) : EffectiveConfig :=
  ⟨collection, [], []⟩

/-- The levels of a collection and all collections above it, put together. The error of the
outermost level with one counts. -/
def load (settings : Settings) (tree : Tree) (collection : Path) :
    Except ConfigError EffectiveConfig := do
  let levels ← collection.ancestors.mapM (ConfigLevel.load settings tree)
  return ⟨collection, levels.flatMap ConfigLevel.index, levels.flatMap ConfigLevel.bindings⟩

end EffectiveConfig

end DocTree
