import DocTree.Proofs.Engine.Hooks
import DocTree.Proofs.Engine.Nesting

/-!
# Simulation between environments

Two environments whose hooks do the same on running contexts perform mutations in the same way, even
if one of them keeps more about its evaluator than the other. The steps that a particular pair of
environments has to agree on are collected in `Simulates`; that they then agree on whole mutations
is proved here once.

## Main definitions

* `Session.mapEvaluation`: the session with the state of the evaluator changed.
* `Agrees`: an outcome is that of another environment, up to the state of the evaluator.
* `Simulates`: the programs of two environments have agreeing outcomes on running contexts.

## Main results

* `Simulates.performWith`: simulation carries over from hooks to mutations.
* `Environment.perform_eq_performWith_perform`: the mutations of hooks are performed as all others.
-/

namespace DocTree

variable {L L' : HookLanguage} {α β σ τ : Type}

/-- The session with the state of the evaluator changed. -/
def Session.mapEvaluation (f : σ → τ) (session : Session σ) : Session τ :=
  ⟨session.database, f session.evaluation, session.context⟩

/-- The evaluator does not matter for locks. -/
theorem Session.checkLocks_mapEvaluation (f : σ → τ) (session : Session σ) (settings : Settings)
    (mutation : Mutation) :
    (session.mapEvaluation f).checkLocks settings mutation =
      ((session.checkLocks settings mutation).1,
        (session.checkLocks settings mutation).2.mapEvaluation f) := by
  unfold checkLocks mapEvaluation
  dsimp only
  split
  · split <;> rfl
  · rfl

/-- An outcome that leaves the context as given is that of another environment, up to the state of
the evaluator. -/
def Agrees (f : σ → τ) (context : Context) (detailed : α × Session σ) (plain : α × Session τ) :
    Prop :=
  plain = (detailed.1, detailed.2.mapEvaluation f) ∧ detailed.2.context = context

/-- Outcomes agree if their results are changed in the same way. -/
theorem Agrees.mapResult {f : σ → τ} {context : Context} {detailed : α × Session σ}
    {plain : α × Session τ} (h : Agrees f context detailed plain) (g : α → β) :
    Agrees f context (g detailed.1, detailed.2) (g plain.1, plain.2) := by
  obtain ⟨rfl, hcontext⟩ := h
  exact ⟨rfl, hcontext⟩

/-- The results of compiling the same source agree: the causes of failure are the same, or the
programs declare the same functions and do the same on running contexts. -/
inductive ProgramsAgree (detailed : Environment L σ) (plain : Environment L' τ) (f : σ → τ)
    (host : Host σ) (host' : Host τ) :
    Except ProgramError (Program L) → Except ProgramError (Program L') → Prop where
  /-- Both do not compile. -/
  | error (cause : ProgramError) :
      ProgramsAgree detailed plain f host host' (.error cause) (.error cause)
  /-- Both compile. -/
  | ok {program : Program L} {program' : Program L'}
      (hdeclares : program.declares = program'.declares)
      (hexecute : ∀ transaction vars call (session : Session σ),
        session.context.guard.IsRunning →
        Agrees f session.context (detailed.execute host transaction program vars call session)
          (plain.execute host' transaction program' vars call (session.mapEvaluation f))) :
      ProgramsAgree detailed plain f host host' (.ok program) (.ok program')

/-- An environment simulates another one: the settings are the same, and whatever is compiled
agrees. -/
structure Simulates (detailed : Environment L σ) (plain : Environment L' τ) (f : σ → τ)
    (host : Host σ) (host' : Host τ) : Prop where
  /-- The settings are the same. -/
  settings : detailed.settings = plain.settings
  /-- The evaluators go on from the same state. -/
  state : ∀ source state, (plain.evaluator.compile source (f state)).2 =
    f (detailed.evaluator.compile source state).2
  /-- Compiled programs agree. -/
  programs : ∀ source state, ProgramsAgree detailed plain f host host'
    (detailed.evaluator.compile source state).1 (plain.evaluator.compile source (f state)).1

namespace Simulates

variable {detailed : Environment L σ} {plain : Environment L' τ} {f : σ → τ} {host : Host σ}
  {host' : Host τ}

/-- Simulation carries over to the hook of one binding. -/
theorem runBinding (hsim : Simulates detailed plain f host host') (occasion : Occasion)
    (phase : Phase) (binding : Binding) (session : Session σ)
    (h : session.context.guard.IsRunning) :
    Agrees f session.context (detailed.runBinding host occasion phase binding session)
      (plain.runBinding host' occasion phase binding (session.mapEvaluation f)) := by
  have hstate := hsim.state binding.source session.evaluation
  have hprograms := hsim.programs binding.source session.evaluation
  have hevaluation : (session.mapEvaluation f).evaluation = f session.evaluation := rfl
  unfold Environment.runBinding
  rw [hevaluation]
  -- The two results of compiling are related by the hypotheses only.
  generalize detailed.evaluator.compile binding.source session.evaluation = compiled
    at hstate hprograms ⊢
  generalize plain.evaluator.compile binding.source (f session.evaluation) = compiled'
    at hstate hprograms ⊢
  obtain ⟨result, evaluation⟩ := compiled
  obtain ⟨result', evaluation'⟩ := compiled'
  obtain rfl : evaluation' = f evaluation := hstate
  cases hprograms with
  | error cause => exact ⟨rfl, rfl⟩
  | @ok program program' hdeclares hexecute =>
    dsimp only
    split
    · exact (hexecute occasion.transaction
        (Variables.ofEvent binding occasion.event phase occasion.source occasion.destination) none
        { session with evaluation } h).mapResult _
    · rw [hdeclares]
      split
      · exact (hexecute occasion.transaction (Variables.ofParameters binding)
          (some (HookCall.ofEvent occasion.event phase occasion.source occasion.destination))
          { session with evaluation } h).mapResult _
      · exact ⟨rfl, rfl⟩

/-- Simulation carries over to the hooks that run before a change. -/
theorem runUntilFailure (hsim : Simulates detailed plain f host host') (occasion : Occasion)
    (bindings : List Binding) (session : Session σ) (h : session.context.guard.IsRunning) :
    Agrees f session.context (detailed.runUntilFailure host occasion bindings session)
      (plain.runUntilFailure host' occasion bindings (session.mapEvaluation f)) := by
  induction bindings generalizing session with
  | nil => exact ⟨rfl, rfl⟩
  | cons binding rest ih =>
    obtain ⟨heq, hcontext⟩ := hsim.runBinding occasion .before binding session h
    rw [Environment.runUntilFailure, Environment.runUntilFailure, heq]
    generalize detailed.runBinding host occasion .before binding session = outcome at hcontext ⊢
    obtain ⟨result, after⟩ := outcome
    cases result with
    | error e => exact ⟨rfl, hcontext⟩
    | ok _ =>
      have hrest := ih after (hcontext ▸ h)
      rw [show after.context = session.context from hcontext] at hrest
      exact hrest

/-- Simulation carries over to the hooks that run after a change. -/
theorem runAndPublish (hsim : Simulates detailed plain f host host') (occasion : Occasion)
    (bindings : List Binding) (session : Session σ) (h : session.context.guard.IsRunning) :
    plain.runAndPublish host' occasion bindings (session.mapEvaluation f) =
      (detailed.runAndPublish host occasion bindings session).mapEvaluation f := by
  induction bindings generalizing session with
  | nil => rfl
  | cons binding rest ih =>
    obtain ⟨heq, hcontext⟩ := hsim.runBinding occasion .after binding session h
    rw [Environment.runAndPublish, Environment.runAndPublish, heq]
    generalize detailed.runBinding host occasion .after binding session = outcome at hcontext ⊢
    obtain ⟨result, after⟩ := outcome
    cases result with
    | error e => exact ih (after.publish occasion binding.declaredAt e) (hcontext ▸ h)
    | ok _ => exact ih after (hcontext ▸ h)

/-- Simulation does not matter for which configuration is in effect. -/
theorem resolve (hsim : Simulates detailed plain f host host') {session resolved : Session σ}
    {collection : Path} {result : Except ConfigError CacheEntry}
    (h : session.resolve detailed.settings collection = (result, resolved)) :
    (session.mapEvaluation f).resolve plain.settings collection =
      (result, resolved.mapEvaluation f) := by
  obtain ⟨rfl, rfl⟩ := Session.eq_of_resolve h
  rw [← hsim.settings]
  rfl

/-- Simulation carries over to the first phase. -/
theorem runBefore (hsim : Simulates detailed plain f host host') (occasion : Occasion)
    (session : Session σ) :
    plain.runBefore host' occasion (session.mapEvaluation f) =
      ((detailed.runBefore host occasion session).1,
        (detailed.runBefore host occasion session).2.mapEvaluation f) := by
  have hruns := detailed.runsBefore_runBefore host occasion session
  generalize (detailed.runBefore host occasion session).1 = result,
    (detailed.runBefore host occasion session).2 = after at hruns ⊢
  apply Environment.runBefore_eq_of_runsBefore
  cases hruns with
  | unresolved hresolve => exact .unresolved (hsim.resolve hresolve)
  | unbound hresolve hbindings => exact .unbound (hsim.resolve hresolve) hbindings
  | engaged hresolve hengaged => exact .engaged (hsim.resolve hresolve) hengaged
  | @failed entry resolved _ _ hresolve hidle hrun =>
    have hran := (hsim.runUntilFailure occasion entry.config.bindings
      (resolved.enterRun (.running occasion.source .before) occasion.transaction)
      ⟨_, _, rfl⟩).1
    rw [hrun] at hran
    exact .failed (hsim.resolve hresolve) hidle hran
  | @passed entry resolved _ hresolve hbindings hidle hrun =>
    have hran := (hsim.runUntilFailure occasion entry.config.bindings
      (resolved.enterRun (.running occasion.source .before) occasion.transaction)
      ⟨_, _, rfl⟩).1
    rw [hrun] at hran
    exact .passed (hsim.resolve hresolve) hbindings hidle hran

/-- Simulation carries over to the second phase. -/
theorem runAfter (hsim : Simulates detailed plain f host host') (occasion : Occasion)
    (session : Session σ) :
    plain.runAfter host' occasion (session.mapEvaluation f) =
      (detailed.runAfter host occasion session).mapEvaluation f := by
  have hruns := detailed.runsAfter_runAfter host occasion session
  generalize detailed.runAfter host occasion session = after at hruns ⊢
  apply Environment.runAfter_eq_of_runsAfter
  cases hruns with
  | unresolved hresolve => exact .unresolved (hsim.resolve hresolve)
  | unbound hresolve hbindings => exact .unbound (hsim.resolve hresolve) hbindings
  | engaged hresolve hengaged hother => exact .engaged (hsim.resolve hresolve) hengaged hother
  | @ran entry resolved hresolve hbindings hfree =>
    have hran := hsim.runAndPublish occasion entry.config.bindings
      (resolved.enterRun (.running occasion.source .after) occasion.transaction) ⟨_, _, rfl⟩
    have hafter : plain.RunsAfter host' occasion (session.mapEvaluation f) _ :=
      .ran (hsim.resolve hresolve) hbindings hfree
    rw [show (resolved.mapEvaluation f).enterRun (.running occasion.source .after)
      occasion.transaction = (resolved.enterRun (.running occasion.source .after)
        occasion.transaction).mapEvaluation f from rfl, hran] at hafter
    exact hafter

/-- Simulation does not matter for locks. -/
theorem checkLocks (hsim : Simulates detailed plain f host host') {session checked : Session σ}
    {mutation : Mutation} {result : Except MutationError Unit}
    (h : session.checkLocks detailed.settings mutation = (result, checked)) :
    (session.mapEvaluation f).checkLocks plain.settings mutation =
      (result, checked.mapEvaluation f) := by
  rw [← hsim.settings, Session.checkLocks_mapEvaluation, h]

/-- Simulation carries over from hooks to mutations. -/
theorem performWith (hsim : Simulates detailed plain f host host') (transaction : TransactionId)
    (mutation : Mutation) (session : Session σ) :
    plain.performWith host' transaction mutation (session.mapEvaluation f) =
      ((detailed.performWith host transaction mutation session).1,
        (detailed.performWith host transaction mutation session).2.mapEvaluation f) := by
  have hperforms := detailed.performs_performWith host transaction mutation session
  generalize (detailed.performWith host transaction mutation session).1 = result,
    (detailed.performWith host transaction mutation session).2 = after at hperforms ⊢
  -- Each way that the detailed environment goes is a way of the plain one.
  have hbetween : ∀ {checked result told},
      detailed.runBefore host (.of transaction mutation) checked = (result, told) →
      plain.runBefore host' (.of transaction mutation) (checked.mapEvaluation f) =
        (result, told.mapEvaluation f) := by
    intro checked result told hbefore
    rw [hsim.runBefore, hbefore]
  apply Environment.performWith_eq_of_performs
  cases hperforms with
  | locked hlocks => exact .locked (hsim.checkLocks hlocks)
  | prevented hlocks hbefore => exact .prevented (hsim.checkLocks hlocks) (hbetween hbefore)
  | rejected hlocks hbefore hstore =>
    exact .rejected (hsim.checkLocks hlocks) (hbetween hbefore) hstore
  | @applied checked told store hlocks hbefore hstore =>
    have happlied : plain.Performs host' transaction mutation (session.mapEvaluation f) _ _ :=
      .applied (hsim.checkLocks hlocks) (hbetween hbefore) hstore
    rw [show ({ told.mapEvaluation f with
        database := { (told.mapEvaluation f).database with store } } : Session τ) =
          ({ told with database := { told.database with store } } : Session σ).mapEvaluation f
        from rfl, hsim.runAfter, ← hsim.settings] at happlied
    exact happlied

end Simulates

/-! ### The mutations of hooks -/

/-- On a running context, a script does the same with two hosts that do the same there. -/
theorem Script.run_congr_of_running
    {host host' : Mutation → Session σ → Except MutationError Unit × Session σ}
    {handle : (op : L.Op) → Session σ → L.Reply op × Session σ}
    (hagree : ∀ mutation session, session.context.guard.IsRunning →
      Agrees id session.context (host mutation session) (host' mutation session))
    (hhandle : ∀ op session, (handle op session).2.context = session.context)
    (script : Script L α) (session : Session σ) (h : session.context.guard.IsRunning) :
    Agrees id session.context (script.run host handle session)
      (script.run host' handle session) := by
  induction script generalizing session with
  | done value => exact ⟨rfl, rfl⟩
  | perform mutation next ih =>
    obtain ⟨heq, hcontext⟩ := hagree mutation session h
    -- The answers are the same, so the scripts go on in the same way.
    have hnext := ih (host mutation session).1 (host mutation session).2 (hcontext ▸ h)
    rw [hcontext] at hnext
    rw [Script.run, Script.run, heq]
    exact hnext
  | call op next ih =>
    have hcontext := hhandle op session
    have hnext := ih (handle op session).1 (handle op session).2 (hcontext ▸ h)
    rw [hcontext] at hnext
    exact hnext

namespace Environment

variable {env : Environment L σ}

/-- With two hosts that do the same on running contexts, hooks do the same. -/
theorem simulates_of_agrees {host host' : Host σ} (hkeeps : env.evaluator.KeepsContext)
    (hagree : ∀ transaction mutation session, session.context.guard.IsRunning →
      Agrees id session.context (host transaction mutation session)
        (host' transaction mutation session)) :
    Simulates env env id host host' where
  settings := rfl
  state _ _ := rfl
  programs source state := by
    show ProgramsAgree env env id host host' (env.evaluator.compile source state).1
      (env.evaluator.compile source state).1
    cases (env.evaluator.compile source state).1 with
    | error cause => exact .error cause
    | ok program =>
      refine .ok rfl fun transaction vars call session h => ?_
      exact Script.run_congr_of_running (hagree transaction)
        (fun op session => hkeeps op transaction session) (program.body vars call) session h

/-- The mutations of hooks are performed in the same way as all others. -/
theorem perform_eq_performWith_perform (hkeeps : env.evaluator.KeepsContext) :
    env.perform = env.performWith env.perform := by
  -- On running contexts, the two hosts differ only in who performs for hooks that do not run.
  have hsim : Simulates env env id env.performNested env.perform := by
    refine simulates_of_agrees hkeeps fun transaction mutation session h => ⟨?_, ?_⟩
    · exact performWith_congr_of_running _ h
    · exact (sameRest_performWith_of_running _ _ _ _ _ h).2
  funext transaction mutation session
  exact (hsim.performWith transaction mutation session).symm

end Environment

end DocTree
