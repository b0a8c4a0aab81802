import DocTree.Lock.Table
import DocTree.Hook.Binding

/-!
# Settings

The settings of a database, and the correspondence between collections and the places of their
configuration documents: the documents lie in a tree of their own that repeats the hierarchy below
the configuration root.

## Main definitions

* `Settings`: the settings, with their defaults `Settings.default`.
* `Settings.documentFor?`: where the configuration document of a collection lies.
* `Settings.collectionFor?`: the collection that a path below the configuration root
  configures.
-/

namespace DocTree

/-- The settings of a database. -/
structure Settings where
  /-- The collection below which configuration documents lie. -/
  configRoot : Path
  /-- The name of the configuration document of each level. -/
  fileName : String
  /-- The stem of bindings that ask for no other. -/
  bindingStem : String
  /-- The lifetime of a lock for which none is requested. -/
  defaultTimeout : Duration
  /-- The upper bound of lock lifetimes, if there is one. -/
  maxTimeout : Option Duration
  /-- Whether requests made by a principal must respect locks. -/
  enforceLocks : Bool
  /-- How many failures are kept for polling. -/
  historyLimit : Nat
  deriving DecidableEq

namespace Settings

/-- The default place of configuration documents, `/db/system/config`. -/
def defaultRoot : Path :=
  Path.ofSegments [['d', 'b'], ['s', 'y', 's', 't', 'e', 'm'], ['c', 'o', 'n', 'f', 'i', 'g']]
    (by decide) (by decide)

/-- The default settings: locks last an hour and at most a week. -/
def default : Settings where
  configRoot := defaultRoot
  fileName := "collection.xconf.json"
  bindingStem := defaultStem
  defaultTimeout := .ofSeconds 3600
  maxTimeout := some (.ofSeconds (7 * 24 * 3600))
  enforceLocks := true
  historyLimit := 1000

instance : Inhabited Settings := ⟨default⟩

/-- Sets the stem of bindings that ask for no other. -/
def withBindingStem (settings : Settings) (stem : String) : Settings :=
  { settings with bindingStem := normalizeStem stem }

/-- Where the configuration document of a collection lies, if the file name can be a segment. -/
def documentFor? (settings : Settings) (collection : Path) : Option Path :=
  (settings.configRoot.append collection).child? settings.fileName.toList

/-- The collection that a path below the configuration root configures: a configuration document
configures the collection that it lies in, any other path the collection of the same name. -/
def collectionFor? (settings : Settings) (path : Path) : Option Path :=
  (path.stripAncestor? settings.configRoot).bind fun counterpart =>
    if counterpart.name = settings.fileName.toList then counterpart.parent? else some counterpart

/-- What the settings say about locks. -/
def lockPolicy (settings : Settings) (permissions : Permissions) : LockPolicy where
  permissions
  defaultTimeout := settings.defaultTimeout
  maxTimeout := settings.maxTimeout

end Settings

end DocTree
