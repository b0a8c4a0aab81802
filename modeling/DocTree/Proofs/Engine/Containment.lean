import DocTree.Proofs.Engine.Alike
import DocTree.Proofs.Engine.Firing

/-!
# What hooks result in after a change

A hook that runs after a change cannot prevent anything any more. If it fails, then the failure is
published, and that is all: the hooks after it run, the run on the context ends, and locks and
configuration are dropped as if it had succeeded. This is a statement about two environments whose
hooks have the same effects. They may differ arbitrarily in what their hooks result in after a
change, and still their mutations have the same results and lead to databases that differ in
nothing but the feed of failures.

## Main definitions

* `Environment.ExecutesAlike` and `Environment.CompilesAlike`: two programs, or the results of
  compiling a source, have the same effects.
* `Environment.SameEffects`: the hooks of two environments have the same effects, and before a
  change also the same results.

## Main results

* `Environment.SameEffects.runBinding`: a hook leaves alike sessions behind, and has one result
  before a change.
* `Environment.SameEffects.runUntilFailure` and `Environment.SameEffects.runAndPublish`: so do the
  hooks of each phase, those that run after a change whatever comes of them.
* `Environment.alike_perform`: performing a mutation has one result in both environments, and leaves
  alike sessions behind.
-/

namespace DocTree

variable {L L' : HookLanguage} {σ τ : Type} {R : σ → τ → Prop}

/-! ### Hooks with the same effects -/

/-- The context is one on which the hooks of a phase run. -/
def Occasion.RunsOn (occasion : Occasion) (phase : Phase) (context : Context) : Prop :=
  context = occasion.runningContext phase context

theorem Occasion.RunsOn.isRunning {occasion : Occasion} {phase : Phase} {context : Context}
    (h : occasion.RunsOn phase context) : context.guard.IsRunning :=
  ⟨occasion.source, phase, congrArg Context.guard h⟩

/-- Whether a program that was compiled for the hook of a binding is executed. -/
def Program.runsFor (program : Program L) (occasion : Occasion) (phase : Phase)
    (binding : Binding) : Bool :=
  match binding.mode occasion.event with
  | .event => true
  | .function => program.declares (occasion.call phase)

namespace Environment

/-- Executes a program for the hook of a binding. -/
def executeFor (env : Environment L σ) (occasion : Occasion) (phase : Phase) (binding : Binding)
    (program : Program L) (session : Session σ) : Except ProgramError Unit × Session σ :=
  let execution := occasion.execution phase binding
  env.execute env.performNested occasion.transaction program execution.vars execution.call session

/-- The mutations that a program asks for when it is executed for the hook of a binding. -/
def askedFor (env : Environment L σ) (occasion : Occasion) (phase : Phase) (binding : Binding)
    (program : Program L) (session : Session σ) : List Mutation :=
  let execution := occasion.execution phase binding
  (program.body execution.vars execution.call).asked (env.performNested occasion.transaction)
    (fun op => env.evaluator.handle op occasion.transaction) session

/-- A hook whose program compiles is executed or left alone. -/
theorem runBinding_of_ok {env : Environment L σ} {occasion : Occasion} {phase : Phase}
    {binding : Binding} {session : Session σ} {program : Program L} {next : σ}
    (h : env.evaluator.compile binding.source session.evaluation = (.ok program, next)) :
    env.runBinding env.performNested occasion phase binding session =
      if program.runsFor occasion phase binding then
        ((env.executeFor occasion phase binding program
            { session with evaluation := next }).1.mapError (.eval (occasion.site phase binding)),
          (env.executeFor occasion phase binding program { session with evaluation := next }).2)
      else (.ok (), { session with evaluation := next }) := by
  unfold runBinding executeFor Program.runsFor
  rw [h]
  dsimp only
  cases hmode : binding.mode occasion.event with
  | event =>
    rw [execution_of_event hmode]
    rfl
  | function =>
    rw [execution_of_function hmode]
    rfl

/-- Two programs have the same effects when they are executed for the hook of a binding: they ask
for the same mutations, and leave the evaluators in related states. Before a change, they also have
the same results. What comes of them after a change is left open. -/
structure ExecutesAlike (R : σ → τ → Prop) (env : Environment L σ) (env' : Environment L' τ)
    (occasion : Occasion) (phase : Phase) (binding : Binding) (program : Program L)
    (program' : Program L') (session : Session σ) (other : Session τ) : Prop where
  /-- They ask for the same mutations. -/
  asked : env'.askedFor occasion phase binding program' other =
    env.askedFor occasion phase binding program session
  /-- They leave the evaluators in related states. -/
  evaluation : R (env.executeFor occasion phase binding program session).2.evaluation
    (env'.executeFor occasion phase binding program' other).2.evaluation
  /-- Before a change, they have the same results. -/
  result : phase = .before →
    (env'.executeFor occasion phase binding program' other).1 =
      (env.executeFor occasion phase binding program session).1

/-- What compiling the source of a binding results in is alike: the same failure, or programs that
declare the same functions and have the same effects whenever they are executed. -/
inductive CompilesAlike (R : σ → τ → Prop) (env : Environment L σ) (env' : Environment L' τ)
    (binding : Binding) :
    Except ProgramError (Program L) → Except ProgramError (Program L') → Prop where
  /-- Neither of them compiles. -/
  | error (cause : ProgramError) : CompilesAlike R env env' binding (.error cause) (.error cause)
  /-- Both compile. -/
  | ok {program : Program L} {program' : Program L'}
      (hdeclares : program'.declares = program.declares)
      (hexecutes : ∀ occasion phase (session : Session σ) (other : Session τ),
        session.Alike R other → occasion.RunsOn phase session.context →
        program.runsFor occasion phase binding = true →
        ExecutesAlike R env env' occasion phase binding program program' session other) :
      CompilesAlike R env env' binding (.ok program) (.ok program')

/-- The hooks of two environments have the same effects, as long as the states of the evaluators are
related. They may differ in what they result in after a change, and in nothing else that the
database could notice. -/
structure SameEffects (R : σ → τ → Prop) (env : Environment L σ) (env' : Environment L' τ) :
    Prop where
  /-- The settings are the same. -/
  settings : env.settings = env'.settings
  /-- Hooks get at the database by mutations only. -/
  keepsDatabase : env.evaluator.KeepsDatabase ∧ env'.evaluator.KeepsDatabase
  /-- Hooks cannot change the context. -/
  keepsContext : env.evaluator.KeepsContext ∧ env'.evaluator.KeepsContext
  /-- Sources compile alike. -/
  compile : ∀ binding state state', R state state' →
    CompilesAlike R env env' binding (env.evaluator.compile binding.source state).1
      (env'.evaluator.compile binding.source state').1
  /-- Compiling leaves the evaluators in related states. -/
  evaluation : ∀ source state state', R state state' →
    R (env.evaluator.compile source state).2 (env'.evaluator.compile source state').2

namespace SameEffects

variable {env : Environment L σ} {env' : Environment L' τ} {session : Session σ}
  {other : Session τ} {occasion : Occasion} {phase : Phase} {binding : Binding}

/-- Executing two programs with the same effects leaves alike sessions behind. -/
theorem executeFor (heffects : SameEffects R env env') {program : Program L}
    {program' : Program L'} (h : session.Alike R other)
    (hrunning : occasion.RunsOn phase session.context)
    (hexecutes : ExecutesAlike R env env' occasion phase binding program program' session other) :
    (env.executeFor occasion phase binding program session).2.Alike R
      (env'.executeFor occasion phase binding program' other).2 := by
  have hrunning' : other.context.guard.IsRunning := h.context ▸ hrunning.isRunning
  -- Both sessions come from the mutations that both programs ask for.
  have hleft := Script.alike_run env env' heffects.settings heffects.keepsDatabase.1
    heffects.keepsContext.1 occasion.transaction
    (program.body (occasion.execution phase binding).vars (occasion.execution phase binding).call)
    (h.mono fun _ _ _ => trivial) hrunning.isRunning
  have hright := Script.alike_run env' env' rfl heffects.keepsDatabase.2
    heffects.keepsContext.2 occasion.transaction
    (program'.body (occasion.execution phase binding).vars (occasion.execution phase binding).call)
    (.refl other) hrunning'
  have hasked := hexecutes.asked
  unfold askedFor at hasked
  dsimp only at hasked
  rw [hasked] at hright
  exact .of_common hleft hright hexecutes.evaluation

/-- A hook leaves alike sessions behind, and before a change it has one result. -/
theorem runBinding (heffects : SameEffects R env env') (binding : Binding)
    (h : session.Alike R other) (hrunning : occasion.RunsOn phase session.context) :
    (env.runBinding env.performNested occasion phase binding session).2.Alike R
        (env'.runBinding env'.performNested occasion phase binding other).2 ∧
      (phase = .before →
        (env'.runBinding env'.performNested occasion phase binding other).1 =
          (env.runBinding env.performNested occasion phase binding session).1) := by
  have hcompiles := heffects.compile binding _ _ h.evaluation
  have hnext := h.withEvaluation (heffects.evaluation binding.source _ _ h.evaluation)
  cases hcompile : env.evaluator.compile binding.source session.evaluation with
  | mk result next =>
    cases hcompile' : env'.evaluator.compile binding.source other.evaluation with
    | mk result' next' =>
      rw [hcompile, hcompile'] at hcompiles hnext
      dsimp only at hcompiles hnext
      cases hcompiles with
      | error cause =>
        unfold Environment.runBinding
        rw [hcompile, hcompile']
        exact ⟨hnext, fun _ => rfl⟩
      | @ok program program' hdeclares hexecutes =>
        have hruns : program'.runsFor occasion phase binding =
            program.runsFor occasion phase binding := by
          rw [Program.runsFor, Program.runsFor, hdeclares]
        rw [runBinding_of_ok hcompile, runBinding_of_ok hcompile', hruns]
        split
        next hfits =>
          have hexecuted := hexecutes occasion phase _ _ hnext hrunning hfits
          exact ⟨heffects.executeFor hnext hrunning hexecuted,
            fun hphase => congrArg (Except.mapError _) (hexecuted.result hphase)⟩
        · exact ⟨hnext, fun _ => rfl⟩

/-- Hooks run on a context that they leave alone. -/
theorem runsOn_runBinding (heffects : SameEffects R env env') (binding : Binding)
    (hrunning : occasion.RunsOn phase session.context) :
    occasion.RunsOn phase
      (env.runBinding env.performNested occasion phase binding session).2.context := by
  have hcontext := (contextInvariant heffects.keepsContext.1
    (keepsRunning_performWith env idleHost) occasion.transaction hrunning.isRunning).runBinding
    occasion phase binding session rfl
  rw [show env.performNested = env.performWith idleHost from rfl, hcontext]
  exact hrunning

/-- The hooks that run before a change have one result and leave alike sessions behind. -/
theorem runUntilFailure (heffects : SameEffects R env env') (bindings : List Binding)
    {result : Except HookError Unit} {ran : Session σ} (h : session.Alike R other)
    (hrunning : occasion.RunsOn .before session.context)
    (hrun : env.runUntilFailure env.performNested occasion bindings session = (result, ran)) :
    ∃ ran', env'.runUntilFailure env'.performNested occasion bindings other = (result, ran') ∧
      ran.Alike R ran' := by
  induction bindings generalizing session other with
  | nil =>
    obtain ⟨rfl, rfl⟩ := Prod.mk.inj hrun
    exact ⟨other, rfl, h⟩
  | cons binding rest ih =>
    obtain ⟨halike, hresult⟩ := heffects.runBinding binding h hrunning
    have hcontext := heffects.runsOn_runBinding binding hrunning
    have hresult := hresult rfl
    rw [Environment.runUntilFailure] at hrun ⊢
    generalize env.runBinding env.performNested occasion .before binding session = outcome
      at hrun halike hresult hcontext
    generalize env'.runBinding env'.performNested occasion .before binding other = outcome'
      at halike hresult ⊢
    obtain ⟨result₁, after⟩ := outcome
    obtain ⟨result₂, after'⟩ := outcome'
    obtain rfl : result₂ = result₁ := hresult
    cases result₂ with
    | error e =>
      obtain ⟨rfl, rfl⟩ := Prod.mk.inj hrun
      exact ⟨after', rfl, halike⟩
    | ok _ => exact ih halike hcontext hrun

/-- The hooks that run after a change leave alike sessions behind, whatever comes of them. -/
theorem runAndPublish (heffects : SameEffects R env env') (bindings : List Binding)
    (h : session.Alike R other) (hrunning : occasion.RunsOn .after session.context) :
    (env.runAndPublish env.performNested occasion bindings session).Alike R
      (env'.runAndPublish env'.performNested occasion bindings other) := by
  induction bindings generalizing session other with
  | nil => exact h
  | cons binding rest ih =>
    obtain ⟨halike, -⟩ := heffects.runBinding binding h hrunning
    have hcontext := heffects.runsOn_runBinding binding hrunning
    rw [runAndPublish_cons, runAndPublish_cons]
    -- One of the hooks may fail and the other may not; only the feeds can tell.
    refine ih (halike.report binding.declaredAt _ _) ?_
    rwa [Session.context_report]

/-- The same locks stand in the way in both environments. -/
theorem checkLocks (heffects : SameEffects R env env') (h : session.Alike R other)
    {mutation : Mutation} {result : Except MutationError Unit} {checked : Session σ}
    (hlocks : session.checkLocks env.settings mutation = (result, checked)) :
    ∃ checked', other.checkLocks env'.settings mutation = (result, checked') ∧
      checked.Alike R checked' := by
  rw [← heffects.settings]
  exact h.checkLocks hlocks

/-- The same configuration is in effect in both environments. -/
theorem resolve (heffects : SameEffects R env env') (h : session.Alike R other)
    {collection : Path} {result : Except ConfigError CacheEntry} {resolved : Session σ}
    (hresolve : session.resolve env.settings collection = (result, resolved)) :
    ∃ resolved', other.resolve env'.settings collection = (result, resolved') ∧
      resolved.Alike R resolved' := by
  rw [← heffects.settings]
  exact h.resolve hresolve

/-- The first phase has one result and leaves alike sessions behind. -/
theorem runBefore (heffects : SameEffects R env env') (h : session.Alike R other)
    {result : Except HookError Unit} {after : Session σ}
    (hbefore : env.runBefore env.performNested occasion session = (result, after)) :
    ∃ after', env'.runBefore env'.performNested occasion other = (result, after') ∧
      after.Alike R after' := by
  have hruns := env.runsBefore_runBefore env.performNested occasion session
  rw [hbefore] at hruns
  cases hruns with
  | unresolved hresolve =>
    obtain ⟨resolved', hresolve', hresolved⟩ := heffects.resolve h hresolve
    exact ⟨_, runBefore_eq_of_runsBefore (.unresolved hresolve'), hresolved⟩
  | unbound hresolve hbindings =>
    obtain ⟨resolved', hresolve', hresolved⟩ := heffects.resolve h hresolve
    exact ⟨_, runBefore_eq_of_runsBefore (.unbound hresolve' hbindings), hresolved⟩
  | engaged hresolve hengaged =>
    obtain ⟨resolved', hresolve', hresolved⟩ := heffects.resolve h hresolve
    rw [← h.context] at hengaged
    exact ⟨_, runBefore_eq_of_runsBefore (.engaged hresolve' hengaged), hresolved⟩
  | failed hresolve hidle hrun =>
    obtain ⟨resolved', hresolve', hresolved⟩ := heffects.resolve h hresolve
    obtain ⟨ran', hrun', hran⟩ := heffects.runUntilFailure _ (hresolved.enterRun .before) rfl hrun
    rw [← h.context] at hidle
    exact ⟨_, runBefore_eq_of_runsBefore (.failed hresolve' hidle hrun'),
      hran.mapContext Context.endRun⟩
  | passed hresolve hbindings hidle hrun =>
    obtain ⟨resolved', hresolve', hresolved⟩ := heffects.resolve h hresolve
    obtain ⟨ran', hrun', hran⟩ := heffects.runUntilFailure _ (hresolved.enterRun .before) rfl hrun
    rw [← h.context] at hidle
    exact ⟨_, runBefore_eq_of_runsBefore (.passed hresolve' hbindings hidle hrun'),
      hran.mapContext fun context => { context with guard := context.guard.suspend }⟩

/-- The second phase leaves alike sessions behind. -/
theorem runAfter (heffects : SameEffects R env env') (h : session.Alike R other) :
    (env.runAfter env.performNested occasion session).Alike R
      (env'.runAfter env'.performNested occasion other) := by
  have hruns := env.runsAfter_runAfter env.performNested occasion session
  generalize env.runAfter env.performNested occasion session = after at hruns ⊢
  cases hruns with
  | @unresolved error _ hresolve =>
    obtain ⟨resolved', hresolve', hresolved⟩ := heffects.resolve h hresolve
    rw [runAfter_eq_of_runsAfter (.unresolved hresolve')]
    exact (hresolved.mapContext fun context => context.discardRun occasion.source).report _
      (.error (.config error)) (.error (.config error))
  | unbound hresolve hbindings =>
    obtain ⟨resolved', hresolve', hresolved⟩ := heffects.resolve h hresolve
    rw [runAfter_eq_of_runsAfter (.unbound hresolve' hbindings)]
    exact hresolved.mapContext fun context => context.discardRun occasion.source
  | engaged hresolve hengaged hother =>
    obtain ⟨resolved', hresolve', hresolved⟩ := heffects.resolve h hresolve
    rw [← h.context] at hengaged hother
    rw [runAfter_eq_of_runsAfter (.engaged hresolve' hengaged hother)]
    exact hresolved
  | ran hresolve hbindings hfree =>
    obtain ⟨resolved', hresolve', hresolved⟩ := heffects.resolve h hresolve
    rw [← h.context] at hfree
    rw [runAfter_eq_of_runsAfter (.ran hresolve' hbindings hfree)]
    exact (heffects.runAndPublish _ (hresolved.enterRun .after) rfl).mapContext Context.endRun

end SameEffects

/-- What hooks result in after a change is contained. If the hooks of two environments have the same
effects, and before a change the same results, then performing a mutation has one result in both,
and the sessions that it leaves behind differ in nothing but their feeds of failures and the states
of their evaluators. -/
theorem alike_perform {env : Environment L σ} {env' : Environment L' τ}
    (heffects : SameEffects R env env') {session : Session σ} {other : Session τ}
    (h : session.Alike R other) (transaction : TransactionId) (mutation : Mutation) :
    (env'.perform transaction mutation other).1 = (env.perform transaction mutation session).1 ∧
      (env.perform transaction mutation session).2.Alike R
        (env'.perform transaction mutation other).2 := by
  have hperforms := env.performs_performWith env.performNested transaction mutation session
  change env.Performs env.performNested transaction mutation session
    (env.perform transaction mutation session).1 (env.perform transaction mutation session).2
    at hperforms
  generalize (env.perform transaction mutation session).1 = result,
    (env.perform transaction mutation session).2 = after at hperforms ⊢
  suffices ∃ after', env'.perform transaction mutation other = (result, after') ∧
      after.Alike R after' by
    obtain ⟨after', hperform, hafter⟩ := this
    rw [hperform]
    exact ⟨rfl, hafter⟩
  -- Each way that the mutation goes in one environment is a way that it goes in the other.
  cases hperforms with
  | locked hlocks =>
    obtain ⟨checked', hlocks', hchecked⟩ := heffects.checkLocks h hlocks
    exact ⟨_, performWith_eq_of_performs (.locked hlocks'), hchecked⟩
  | prevented hlocks hbefore =>
    obtain ⟨checked', hlocks', hchecked⟩ := heffects.checkLocks h hlocks
    obtain ⟨told', hbefore', htold⟩ := heffects.runBefore hchecked hbefore
    exact ⟨_, performWith_eq_of_performs (.prevented hlocks' hbefore'), htold⟩
  | rejected hlocks hbefore hstore =>
    obtain ⟨checked', hlocks', hchecked⟩ := heffects.checkLocks h hlocks
    obtain ⟨told', hbefore', htold⟩ := heffects.runBefore hchecked hbefore
    rw [← htold.store_eq] at hstore
    exact ⟨_, performWith_eq_of_performs (.rejected hlocks' hbefore' hstore),
      htold.mapContext fun context => context.discardRun mutation.source⟩
  | @applied _ _ store hlocks hbefore hstore =>
    obtain ⟨checked', hlocks', hchecked⟩ := heffects.checkLocks h hlocks
    obtain ⟨told', hbefore', htold⟩ := heffects.runBefore hchecked hbefore
    rw [← htold.store_eq] at hstore
    refine ⟨_, performWith_eq_of_performs (.applied hlocks' hbefore' hstore), ?_⟩
    rw [heffects.settings]
    exact (heffects.runAfter (htold.withStore store)).drop

/-! ### Hooks that do not fail after a creation -/

/-- The environment of copies whose hooks do not fail after the creation of a collection. -/
def copyingLeniently : Environment .mutationsOnly Unit where
  settings := .default
  evaluator := {
    compile _ _ := (.ok {
      declares := fun _ => true
      body := fun _ call => .perform (.createCollection (topLevel "copies")) fun reply =>
        .done (if call.any fun call => call.localName == "after-create-collection" then .ok ()
          else reply.mapError fun error => .eval error.message) }, ())
    handle op := nomatch op }

/-- Before a change, no function is called that is meant for the time after it. -/
theorem localName_call_before (occasion : Occasion) (binding : Binding) :
    (occasion.execution .before binding).call.any
      (fun call => call.localName == "after-create-collection") = false := by
  cases hmode : binding.mode occasion.event with
  | event =>
    rw [execution_of_event hmode]
    rfl
  | function =>
    rw [execution_of_function hmode]
    show ("before" ++ "-" ++ occasion.event.name == "after-create-collection") = false
    cases occasion.event <;> decide

/-- Leniency after a change makes no difference to the effects of hooks. -/
theorem sameEffects_copyingLeniently :
    SameEffects (fun _ _ => True) copying copyingLeniently where
  settings := rfl
  keepsDatabase := ⟨Evaluator.keepsDatabase_of_mutationsOnly _,
    Evaluator.keepsDatabase_of_mutationsOnly _⟩
  keepsContext := ⟨Evaluator.keepsContext_of_mutationsOnly _,
    Evaluator.keepsContext_of_mutationsOnly _⟩
  compile binding state state' _ := by
    refine .ok rfl fun occasion phase session other halike hrunning _ => ⟨rfl, trivial, ?_⟩
    rintro rfl
    -- The collection is created in both sessions or in neither.
    obtain ⟨after', hperform', -⟩ := halike.performNested copying copyingLeniently rfl
      hrunning.isRunning (Prod.eta (copying.performNested occasion.transaction
        (.createCollection (topLevel "copies")) session)).symm
    show (if (occasion.execution .before binding).call.any _ then Except.ok ()
        else ((copyingLeniently.performNested occasion.transaction
          (.createCollection (topLevel "copies")) other).1.mapError _)) = _
    rw [localName_call_before, hperform']
    rfl
  evaluation _ _ _ _ := trivial

/-- With a declared hook that creates a collection, and fails if it cannot, creating another one
publishes a failure. If the hook does not fail any more after the change, nothing is published, and
nothing else differs. -/
theorem alike_perform_declaringRun :
    SameEffects (fun _ _ => True) copying copyingLeniently ∧
    declaringRun.Alike (fun _ _ => True) declaringRun ∧
    (copyingLeniently.perform 2 original declaringRun).1 =
      (copying.perform 2 original declaringRun).1 ∧
    (copying.perform 2 original declaringRun).2.Alike (fun _ _ => True)
      (copyingLeniently.perform 2 original declaringRun).2 ∧
    (copying.perform 2 original declaringRun).1.isOk = true ∧
    (copying.perform 2 original declaringRun).2.database.failures.kept.length = 1 ∧
    (copyingLeniently.perform 2 original declaringRun).2.database.failures.kept = [] := by
  have hsame : declaringRun.Alike (fun _ _ => True) declaringRun := .refl _
  obtain ⟨hresult, halike⟩ := alike_perform sameEffects_copyingLeniently hsame 2 original
  exact ⟨sameEffects_copyingLeniently, hsame, hresult, halike, by decide +kernel,
    by decide +kernel, by decide +kernel⟩

end Environment

end DocTree
