import DocTree.Event

/-!
# The reentrancy guard

A hook that changes the hierarchy would fire hooks for its own changes, and so on without end. A
guard holds at most one marker; while it holds one, no further hooks run. The two phases of one
mutation share a marker: it is suspended after the first phase, while no hook runs, and resumed
for the second.

## Main definitions

* `Marker`: what a guard holds.
* `Guard`: a guard, with `Guard.engage`, `Guard.suspend`, `Guard.resume`, `Guard.discard` and
  `Guard.disengage`.
-/

namespace DocTree

/-- The sign that hooks run for a mutation, or are between their two phases. -/
structure Marker where
  /-- The source of the mutation. -/
  path : Path
  /-- The phase. -/
  phase : Phase
  /-- Whether the first phase is over and the second has not begun. -/
  suspended : Bool
  deriving DecidableEq, Repr

/-- A place for at most one marker. -/
structure Guard where
  /-- The marker. -/
  marker : Option Marker
  deriving DecidableEq, Repr

namespace Guard

/-- The guard without a marker. -/
def idle : Guard :=
  ⟨none⟩

instance : Inhabited Guard := ⟨idle⟩

/-- The guard with a running marker. -/
def running (path : Path) (phase : Phase) : Guard :=
  ⟨some ⟨path, phase, false⟩⟩

/-- Sets a running marker, unless there is a marker already. The first component tells whether it
was set. -/
def engage (guard : Guard) (path : Path) (phase : Phase) : Bool × Guard :=
  match guard.marker with
  | some _ => (false, guard)
  | none => (true, running path phase)

/-- Removes the marker. -/
def disengage (_ : Guard) : Guard :=
  idle

/-- Suspends the marker. -/
def suspend (guard : Guard) : Guard :=
  ⟨guard.marker.map fun marker => { marker with suspended := true }⟩

/-- Whether a marker is suspended on a path. -/
def isSuspendedOn (guard : Guard) (path : Path) : Bool :=
  guard.marker.any fun marker => marker.suspended && marker.path == path

/-- Resumes a marker suspended on a path for the second phase. The first component tells whether
there was one. -/
def resume (guard : Guard) (path : Path) : Bool × Guard :=
  if guard.isSuspendedOn path then (true, running path .after) else (false, guard)

/-- Removes a marker suspended on a path whose second phase will not take place. The first
component tells whether there was one. -/
def discard (guard : Guard) (path : Path) : Bool × Guard :=
  if guard.isSuspendedOn path then (true, idle) else (false, guard)

/-- Whether there is a marker. -/
def isEngaged (guard : Guard) : Bool :=
  guard.marker.isSome

/-- Whether there is a suspended marker. -/
def isSuspended (guard : Guard) : Bool :=
  guard.marker.any Marker.suspended

/-- The path and phase of the marker. -/
def current? (guard : Guard) : Option (Path × Phase) :=
  guard.marker.map fun marker => (marker.path, marker.phase)

end Guard

end DocTree
