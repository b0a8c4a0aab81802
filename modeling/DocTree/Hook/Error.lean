import DocTree.Config.Error
import DocTree.Principal
import DocTree.Event

/-!
# Errors of hooks and mutations

Why a hook fails, why the hooks of a mutation prevent it, and why a mutation does not happen; and
how each reason is worded.
-/

namespace DocTree

/-- Why a hook program fails. -/
inductive ProgramError where
  /-- Its text cannot be loaded or compiled. -/
  | compile (message : String)
  /-- It failed while running. -/
  | eval (message : String)
  deriving DecidableEq, Repr

/-- How the failure of a program is worded. -/
def ProgramError.message : ProgramError → String
  | compile message => "compile error: " ++ message
  | eval message => "evaluation error: " ++ message

/-- Where and when a hook was to run. -/
structure HookSite where
  /-- The collection whose configuration declares the hook. -/
  declaredAt : Path
  /-- The event. -/
  event : Event
  /-- The phase. -/
  phase : Phase
  deriving DecidableEq, Repr

/-- Why the hooks of a mutation fail. -/
inductive HookError where
  /-- A hook did not compile. -/
  | compile (site : HookSite) (cause : ProgramError)
  /-- A hook compiled and failed while running. -/
  | eval (site : HookSite) (cause : ProgramError)
  /-- It cannot be determined which hooks there are. -/
  | config (cause : ConfigError)
  deriving DecidableEq, Repr

/-- How the failure of hooks is worded. -/
def HookError.message : HookError → String
  | compile site _ =>
    "error during trigger " ++ site.phase.name ++ ": hook declared at " ++ site.declaredAt.text
      ++ " failed to compile for " ++ site.event.name
  | eval site _ =>
    "error during trigger " ++ site.phase.name ++ ": hook declared at " ++ site.declaredAt.text
      ++ " failed on " ++ site.event.name
  | config cause => "trigger configuration error: " ++ cause.message

/-- Why a mutation does not happen. -/
inductive MutationError where
  /-- A hook that ran before it prevents it. -/
  | trigger (cause : HookError)
  /-- The store refuses it. -/
  | storage (cause : StoreError)
  /-- Another principal holds a lock. -/
  | locked (path : Path) (owner : Principal)
  deriving DecidableEq, Repr

/-- How the failure of a mutation is worded. -/
def MutationError.message : MutationError → String
  | trigger cause => cause.message
  | storage cause => "storage error: " ++ cause.message
  | locked path owner => "document " ++ path.text ++ " is locked by " ++ owner.name

end DocTree
