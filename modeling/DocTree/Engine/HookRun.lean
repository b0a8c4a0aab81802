import DocTree.Engine.Database

/-!
# Running hooks

Running the hooks that the configuration of a collection binds to a mutation. Hooks that run before
the change are run until one fails, which prevents the change. Hooks that run after it all run, and
failures are published.

## Main definitions

* `Occasion`: the mutation that hooks are told about.
* `Environment.runBinding`: runs one hook.
* `Environment.runBefore` and `Environment.runAfter`: run the hooks of a phase.
-/

namespace DocTree

/-- What hooks are told about. -/
structure Occasion where
  /-- The transaction. -/
  transaction : TransactionId
  /-- The event. -/
  event : Event
  /-- The path that the mutation acts on. -/
  source : Path
  /-- The path that a copy or move leads to. -/
  destination : Option Path
  deriving DecidableEq, Repr

namespace Occasion

/-- The occasion of a mutation. -/
def of (transaction : TransactionId) (mutation : Mutation) : Occasion where
  transaction
  event := mutation.event
  source := mutation.source
  destination := mutation.destination?

/-- The resource that hooks running after the change are told about first. -/
def primary (occasion : Occasion) : Path :=
  (Subjects.of occasion.event .after occasion.source occasion.destination).first

/-- The collection whose configuration binds the hooks. -/
def owner (occasion : Occasion) : Path :=
  occasion.source.governingCollection

end Occasion

namespace Session

variable {σ : Type}

/-- Publishes a failure of a hook that ran after the change. -/
def publish (session : Session σ) (occasion : Occasion) (declaredAt : Path) (error : HookError) :
    Session σ :=
  { session with
    database := { session.database with
      failures := session.database.failures.publish {
        event := occasion.event
        path := occasion.primary
        declaredAt
        message := error.message
        transaction := occasion.transaction } } }

/-- Determines the configuration that binds the hooks of an occasion. -/
def resolve (session : Session σ) (settings : Settings) (collection : Path) :
    Except ConfigError CacheEntry × Session σ :=
  let (result, database) := session.database.resolve settings collection
  (result, { session with database })

/-- Marks the context as running the hooks of a transaction. -/
def enterRun (session : Session σ) (guard : Guard) (transaction : TransactionId) : Session σ :=
  { session with
    context := { session.context with guard, hookTransaction := some transaction } }

/-- Ends the run of hooks on the context. -/
def endRun (session : Session σ) : Session σ :=
  { session with context := session.context.endRun }

/-- Suspends the run of hooks on the context. -/
def suspendRun (session : Session σ) : Session σ :=
  { session with
    context := { session.context with guard := session.context.guard.suspend } }

/-- Gives up a run of hooks suspended on a path. -/
def discardRun (session : Session σ) (path : Path) : Session σ :=
  { session with context := session.context.discardRun path }

end Session

namespace Environment

variable {L : HookLanguage} {σ : Type}

/-- Carries out a compiled program. -/
def execute (env : Environment L σ) (host : Host σ) (transaction : TransactionId)
    (program : Program L) (vars : Variables) (call : Option HookCall)
    (session : Session σ) : Except ProgramError Unit × Session σ :=
  (program.body vars call).run (host transaction)
    (fun op => env.evaluator.handle op transaction) session

/-- Runs the hook of one binding. A program that does not list the event, and does not declare the
function for it either, is left alone. -/
def runBinding (env : Environment L σ) (host : Host σ) (occasion : Occasion) (phase : Phase)
    (binding : Binding) (session : Session σ) : Except HookError Unit × Session σ :=
  let site : HookSite := ⟨binding.declaredAt, occasion.event, phase⟩
  match env.evaluator.compile binding.source session.evaluation with
  | (.error cause, evaluation) => (.error (.compile site cause), { session with evaluation })
  | (.ok program, evaluation) =>
    let session := { session with evaluation }
    match binding.mode occasion.event with
    | .event =>
      let vars :=
        Variables.ofEvent binding occasion.event phase occasion.source occasion.destination
      let (result, session) :=
        env.execute host occasion.transaction program vars none session
      (result.mapError (.eval site), session)
    | .function =>
      let call :=
        HookCall.ofEvent occasion.event phase occasion.source occasion.destination
      -- Most programs declare functions for a few events only.
      if program.declares call then
        let (result, session) := env.execute host occasion.transaction program
          (Variables.ofParameters binding) (some call) session
        (result.mapError (.eval site), session)
      else (.ok (), session)

/-- Runs hooks that run before a change, until one fails. -/
def runUntilFailure (env : Environment L σ) (host : Host σ) (occasion : Occasion) :
    List Binding → Session σ → Except HookError Unit × Session σ
  | [], session => (.ok (), session)
  | binding :: rest, session =>
    match env.runBinding host occasion .before binding session with
    | (.error e, session) => (.error e, session)
    | (.ok (), session) => env.runUntilFailure host occasion rest session

/-- Runs hooks that run after a change, and publishes the failures. -/
def runAndPublish (env : Environment L σ) (host : Host σ) (occasion : Occasion) :
    List Binding → Session σ → Session σ
  | [], session => session
  | binding :: rest, session =>
    match env.runBinding host occasion .after binding session with
    | (.error e, session) =>
      env.runAndPublish host occasion rest (session.publish occasion binding.declaredAt e)
    | (.ok (), session) => env.runAndPublish host occasion rest session

/-- Runs the hooks of an occasion before the change. Nothing runs if the context is engaged
already. If all of them succeed, the run stays suspended until the second phase. -/
def runBefore (env : Environment L σ) (host : Host σ) (occasion : Occasion)
    (session : Session σ) : Except HookError Unit × Session σ :=
  match session.resolve env.settings occasion.owner with
  | (.error e, session) => (.error (.config e), session)
  | (.ok entry, session) =>
    if entry.config.bindings.isEmpty then (.ok (), session)
    else
      match session.context.guard.engage occasion.source .before with
      -- A hook that changes something itself gets here: its change fires no hooks.
      | (false, _) => (.ok (), session)
      | (true, guard) =>
        match env.runUntilFailure host occasion entry.config.bindings
            (session.enterRun guard occasion.transaction) with
        | (.error e, session) => (.error e, session.endRun)
        | (.ok (), session) => (.ok (), session.suspendRun)

/-- Resumes a run suspended on a path for the second phase, or starts one. -/
def resumeOrEngage (guard : Guard) (path : Path) : Bool × Guard :=
  match guard.resume path with
  | (true, guard) => (true, guard)
  | (false, guard) => guard.engage path .after

/-- Runs the hooks of an occasion after the change. Nothing runs if the context is engaged, unless
it was suspended by the first phase of the same occasion. -/
def runAfter (env : Environment L σ) (host : Host σ) (occasion : Occasion)
    (session : Session σ) : Session σ :=
  -- The change itself may have changed the configuration, so it is determined again.
  match session.resolve env.settings occasion.owner with
  | (.error e, session) =>
    (session.discardRun occasion.source).publish occasion occasion.owner (.config e)
  | (.ok entry, session) =>
    -- The first phase may have suspended a run for bindings that are gone now.
    if entry.config.bindings.isEmpty then session.discardRun occasion.source
    else
      match resumeOrEngage session.context.guard occasion.source with
      | (false, _) => session
      | (true, guard) =>
        (env.runAndPublish host occasion entry.config.bindings
          (session.enterRun guard occasion.transaction)).endRun

/-- Runs the hooks of an occasion in a phase. -/
def runPhase (env : Environment L σ) (host : Host σ) (occasion : Occasion) (phase : Phase)
    (session : Session σ) : Except HookError Unit × Session σ :=
  match phase with
  | .before => env.runBefore host occasion session
  | .after => (.ok (), env.runAfter host occasion session)

end Environment

end DocTree
