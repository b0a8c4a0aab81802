import DocTree.Path.Map
import DocTree.Store.Mutation
import DocTree.Store.Error

/-!
# The tree of resources

What is stored at each path, and the effect of a mutation on it. A mutation is validated against
the tree as a whole and turned into a list of writes; the writes are then carried out one after
another, and what each of them replaced is remembered for undoing them.

## Main definitions

* `Resource` and `Tree`: what is stored where.
* `Tree.writes`: the writes that a mutation asks for, or why it is refused.
* `Tree.applyWrites` and `Tree.undo`: carrying out writes and taking them back.

## Main results

* `Tree.undo_applyWrites`: undoing the writes just carried out restores the tree.
-/

namespace DocTree

/-- A stored resource. -/
inductive Resource where
  /-- A collection; what it holds is stored at the paths below it. -/
  | collection
  /-- A document with its content. -/
  | document (content : Content)
  deriving DecidableEq

/-- What is stored at each path. -/
abbrev Tree := PathMap Resource

/-- A path and what is to be stored there, or `none` where nothing is to be left. -/
abbrev Write := Path × Option Resource

namespace Tree

/-! ### What a mutation requires -/

/-- The path holds a collection. -/
def requireCollection (tree : Tree) (path : Path) : Except StoreError Unit :=
  match tree.get? path with
  | some .collection => .ok ()
  | some (.document _) => .error (.wrongKind path .collection)
  | none => .error (.notFound path)

/-- The path holds a document; its content. -/
def requireDocument (tree : Tree) (path : Path) : Except StoreError Content :=
  match tree.get? path with
  | some (.document content) => .ok content
  | some .collection => .error (.wrongKind path .document)
  | none => .error (.notFound path)

/-- The path is free, and its parent, if it has one, is a collection. -/
def requireFree (tree : Tree) (path : Path) : Except StoreError Unit :=
  if tree.contains path then .error (.alreadyExists path)
  else
    match path.parent? with
    | none => .ok ()
    | some parent =>
      if tree.get? parent = some .collection then .ok () else .error (.parentNotFound path)

/-- A collection can be copied or moved from `source` to `destination`. -/
def requireTransfer (tree : Tree) (source destination : Path) : Except StoreError Unit := do
  tree.requireCollection source
  if destination.startsWith source then
    .error (.invalidPath destination.text .intoItself)
  tree.requireFree destination

/-! ### The writes of a mutation -/

/-- The writes that put everything at and below `source` to its place below `destination`. -/
def copyWrites (tree : Tree) (source destination : Path) : List Write :=
  (tree.subtree source).filterMap fun entry =>
    (entry.1.relocate? source destination).map (·, some entry.2)

/-- The writes that clear everything at and below a path, the deepest paths first. -/
def clearWrites (tree : Tree) (path : Path) : List Write :=
  (tree.subtree path).reverse.map fun entry => (entry.1, none)

/-- The writes that a mutation asks for, or why it is refused. -/
def writes (tree : Tree) : Mutation → Except StoreError (List Write)
  | .createCollection path => do
    tree.requireFree path
    return [(path, some .collection)]
  | .updateCollection path => do
    tree.requireCollection path
    return [(path, some .collection)]
  | .copyCollection source destination => do
    tree.requireTransfer source destination
    return tree.copyWrites source destination
  | .moveCollection source destination => do
    tree.requireTransfer source destination
    -- The copy comes first: the source is still read for it.
    return tree.copyWrites source destination ++ tree.clearWrites source
  | .deleteCollection path => do
    tree.requireCollection path
    return tree.clearWrites path
  | .createDocument path content => do
    tree.requireFree path
    return [(path, some (.document content))]
  | .updateDocument path content => do
    let _ ← tree.requireDocument path
    return [(path, some (.document content))]
  | .copyDocument source destination => do
    let content ← tree.requireDocument source
    tree.requireFree destination
    return [(destination, some (.document content))]
  | .moveDocument source destination => do
    let content ← tree.requireDocument source
    tree.requireFree destination
    return [(destination, some (.document content)), (source, none)]
  | .deleteDocument path => do
    let _ ← tree.requireDocument path
    return [(path, none)]

/-! ### Carrying out writes and taking them back -/

/-- Stores a resource at a path, or clears the path. -/
def write (tree : Tree) (path : Path) : Option Resource → Tree
  | some resource => tree.insert path resource
  | none => tree.erase path

/-- Carries out writes in order. The second component lists what each write replaced, the last
write first. -/
def applyWrites (tree : Tree) : List Write → Tree × List Write
  | [] => (tree, [])
  | (path, value) :: rest =>
    let (final, replaced) := applyWrites (tree.write path value) rest
    -- What this write replaced comes after what the later ones replaced.
    (final, replaced ++ [(path, tree.get? path)])

/-- Puts back what was replaced, in the order of the list. -/
def undo (tree : Tree) (replaced : List Write) : Tree :=
  replaced.foldl (fun tree entry => tree.write entry.1 entry.2) tree

/-- A path just written holds what was written, every other path what it held. -/
theorem get?_write (tree : Tree) (path other : Path) (value : Option Resource) :
    (tree.write path value).get? other = if path = other then value else tree.get? other := by
  cases value with
  | some resource => exact tree.get?_insert path other resource
  | none => exact tree.get?_erase path other

/-- Writing back what a path held before a write restores the tree. -/
theorem write_write_get? (tree : Tree) (path : Path) (value : Option Resource) :
    (tree.write path value).write path (tree.get? path) = tree := by
  -- Two trees are equal if look-up cannot tell them apart.
  refine PathMap.ext_get? fun key => ?_
  rw [get?_write, get?_write]
  split <;> simp_all

/-- Undoing the writes just carried out restores the tree. -/
theorem undo_applyWrites (tree : Tree) (writes : List Write) :
    (tree.applyWrites writes).1.undo (tree.applyWrites writes).2 = tree := by
  induction writes generalizing tree with
  | nil => rfl
  | cons entry rest ih =>
    obtain ⟨path, value⟩ := entry
    -- The later writes are undone first, which leaves the first write to undo.
    have restored := ih (tree.write path value)
    simp only [undo] at restored
    simp only [applyWrites, undo, List.foldl_append, restored, List.foldl_cons, List.foldl_nil,
      write_write_get?]

/-! ### Reading -/

/-- The content of the document at a path. -/
def document? (tree : Tree) (path : Path) : Option Content :=
  match tree.get? path with
  | some (.document content) => some content
  | _ => none

/-- The paths directly below a path, in order. -/
def children (tree : Tree) (path : Path) : List Path :=
  ((tree.subtree path).map Prod.fst).filter fun child => child.depth = path.depth + 1

/-- The content of a configuration document: none if nothing is stored at the path, and an error if
a collection is. -/
def readConfig (tree : Tree) (path : Path) : Except StoreError (Option Content) :=
  match tree.get? path with
  | some (.document content) => .ok (some content)
  | some .collection => .error (.wrongKind path .document)
  | none => .ok none

end Tree

end DocTree
