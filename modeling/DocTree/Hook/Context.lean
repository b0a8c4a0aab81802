import DocTree.Principal
import DocTree.Store.Error
import DocTree.Hook.Guard

/-!
# Execution contexts

What one thread of control carries along from a request through the hooks it fires and into the
mutations that these ask for.

## Main definitions

* `Context`: on whose behalf a request is made, and whether hooks run for it.
-/

namespace DocTree

/-- What one thread of control carries along. -/
structure Context where
  /-- Keeps hooks from firing hooks. -/
  guard : Guard
  /-- The transaction that the running hooks belong to. -/
  hookTransaction : Option TransactionId
  /-- The client that the request is made for; internal requests have none and are not subject to
  locks. -/
  principal : Option Principal
  deriving DecidableEq, Repr

namespace Context

/-- The context of an internal request. -/
def internal : Context :=
  ⟨.idle, none, none⟩

/-- The context of a request made for a client. -/
def ofPrincipal (principal : Principal) : Context :=
  ⟨.idle, none, some principal⟩

instance : Inhabited Context := ⟨internal⟩

/-- Whether hooks run, or are between their phases. -/
def isRunningHooks (context : Context) : Bool :=
  context.guard.isEngaged

/-- Removes the marker and forgets the transaction. -/
def endRun (context : Context) : Context :=
  { context with guard := context.guard.disengage, hookTransaction := none }

/-- Removes a marker suspended on a path whose second phase will not take place. -/
def discardRun (context : Context) (path : Path) : Context :=
  match context.guard.discard path with
  | (true, guard) => { context with guard, hookTransaction := none }
  | (false, guard) => { context with guard }

end Context

end DocTree
