import DocTree.Path.Basic

/-!
# Mutations

The ten structural changes that can be made to the hierarchy of collections and documents. Every
change is one of these values, whoever asks for it.

## Main definitions

* `Mutation`: a structural change.
* `Mutation.source` and `Mutation.destination?`: the paths it names.
-/

namespace DocTree

/-- The bytes of a document. -/
abbrev Content := ByteArray

/-- Contents are compared byte by byte. -/
instance : DecidableEq Content :=
  ByteArray.decEq

/-- A structural change to the hierarchy. -/
inductive Mutation where
  /-- Creates an empty collection. -/
  | createCollection (path : Path)
  /-- Touches a collection without changing what lies below it. -/
  | updateCollection (path : Path)
  /-- Copies a collection with all that lies below it. -/
  | copyCollection (source destination : Path)
  /-- Moves a collection with all that lies below it. -/
  | moveCollection (source destination : Path)
  /-- Deletes a collection with all that lies below it. -/
  | deleteCollection (path : Path)
  /-- Stores a new document. -/
  | createDocument (path : Path) (content : Content)
  /-- Replaces the content of a document. -/
  | updateDocument (path : Path) (content : Content)
  /-- Copies a document. -/
  | copyDocument (source destination : Path)
  /-- Moves a document. -/
  | moveDocument (source destination : Path)
  /-- Deletes a document. -/
  | deleteDocument (path : Path)
  deriving DecidableEq

namespace Mutation

/-- The path the mutation acts on; for a copy or move, the path it starts from. -/
def source : Mutation → Path
  | createCollection path => path
  | updateCollection path => path
  | copyCollection source _ => source
  | moveCollection source _ => source
  | deleteCollection path => path
  | createDocument path _ => path
  | updateDocument path _ => path
  | copyDocument source _ => source
  | moveDocument source _ => source
  | deleteDocument path => path

/-- The path a copy or move leads to. -/
def destination? : Mutation → Option Path
  | copyCollection _ destination => some destination
  | moveCollection _ destination => some destination
  | copyDocument _ destination => some destination
  | moveDocument _ destination => some destination
  | _ => none

/-- Whether the mutation acts on a collection. -/
def actsOnCollection : Mutation → Bool
  | createCollection _ | updateCollection _ | copyCollection _ _ | moveCollection _ _
  | deleteCollection _ => true
  | _ => false

/-- Whether nothing is left at the source once the mutation is done. -/
def vacatesSource : Mutation → Bool
  | moveCollection _ _ | deleteCollection _ | moveDocument _ _ | deleteDocument _ => true
  | _ => false

end Mutation

end DocTree
