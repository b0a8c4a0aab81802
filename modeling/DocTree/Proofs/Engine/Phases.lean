import DocTree.Proofs.Engine.Steps

/-!
# The phases step by step

A mutation that a hook asks for adds itself to the journal, an execution notes down its moments, a
hook takes one step, and a phase takes one step for each of its hooks: up to the first failure
before the change, and for all of them after it.

## Main results

* `Environment.accounts_performWith_of_running`: what a mutation adds that a hook asks for.
* `Script.exists_answers`: what is noted down while a script runs.
* `Environment.exists_step`: running a hook takes one step.
* `Environment.exists_steps_runBefore` and `Environment.exists_steps_runAfter`: the steps of the
  hooks of a phase.
-/

namespace DocTree

variable {L : HookLanguage} {α σ : Type}

/-! ### Mutations asked for by hooks -/

namespace Session

variable {settings : Settings} {transaction : TransactionId} {mutation : Mutation}
  {session : Session σ}

/-- Checking locks adds nothing. -/
theorem accounts_of_checkLocks {result : Except MutationError Unit} {checked : Session σ}
    (h : session.checkLocks settings mutation = (result, checked)) :
    Database.Accounts session.database checked.database [] [] := by
  obtain ⟨locks, rfl⟩ := eq_of_checkLocks h
  exact .of_eq (fun h => ⟨h.rootReady, h.atRest⟩) rfl rfl

theorem accounts_of_resolve {collection : Path} {result : Except ConfigError CacheEntry}
    {resolved : Session σ} (h : session.resolve settings collection = (result, resolved)) :
    Database.Accounts session.database resolved.database [] [] := by
  obtain ⟨-, rfl⟩ := eq_of_resolve h
  exact .resolve settings collection

/-- The end of a mutation adds nothing. -/
theorem accounts_dropConfig :
    Database.Accounts session.database
      ((session.dropLocks mutation).dropConfig settings transaction mutation).database [] [] :=
  .of_eq (fun h => ⟨rootReady_dropConfig.trans h.rootReady, atRest_dropConfig h.atRest⟩)
    store_dropConfig failures_dropConfig

/-- The three steps add the mutation to the journal if they succeed. -/
theorem accounts_of_performsPlain {result : Except MutationError Unit} {after : Session σ}
    (h : session.PerformsPlain settings transaction mutation result after) :
    Database.Accounts session.database after.database
      ((Answer.mutation mutation result).applied transaction) [] := by
  cases h with
  | locked hlocks => exact accounts_of_checkLocks hlocks
  | unresolved hlocks hresolve =>
    exact (accounts_of_checkLocks hlocks).trans (accounts_of_resolve hresolve)
  | rejected hlocks hresolve =>
    exact (accounts_of_checkLocks hlocks).trans (accounts_of_resolve hresolve)
  | applied hlocks hresolve hstore =>
    have hresolved := (accounts_of_checkLocks hlocks).trans (accounts_of_resolve hresolve)
    exact hresolved.trans (.perform hstore)

/-- Once the three steps have succeeded, the configuration that they have determined is found
again: the store may have changed it, but it is still cached. -/
theorem PerformsPlain.resolve_again {after : Session σ}
    (h : session.PerformsPlain settings transaction mutation (.ok ()) after)
    (hquiet : session.database.Quiescent) :
    ∃ entry, after.resolve settings mutation.source.governingCollection = (.ok entry, after) := by
  cases h with
  | @applied entry checked resolved store hlocks hresolve =>
    obtain ⟨hchecked, -, -⟩ := accounts_of_checkLocks hlocks hquiet
    obtain ⟨hentry, rfl⟩ := eq_of_resolve hresolve
    -- The second resolution comes across the slot of the first one and does not look at the store.
    refine ⟨entry, ?_⟩
    rw [Session.resolve]
    dsimp only
    rw [hchecked.resolve_again hentry store]

/-- If the configuration is found, then only locks and configuration are left to be dropped after
the three steps. -/
theorem settlePlain_of_resolved {entry : CacheEntry}
    (h : session.resolve settings mutation.source.governingCollection = (.ok entry, session)) :
    session.settlePlain settings transaction mutation =
      (session.dropLocks mutation).dropConfig settings transaction mutation := by
  have hresolve : session.resolve settings (Occasion.of transaction mutation).owner =
      (.ok entry, session) := h
  rw [settlePlain, hresolve]

end Session

namespace Environment

/-- A mutation that a hook asks for adds itself to the journal if it succeeds, and publishes
nothing. -/
theorem accounts_performWith_of_running (env : Environment L σ) (host : Host σ)
    (transaction : TransactionId) (mutation : Mutation) (session : Session σ)
    (h : session.context.guard.IsRunning) :
    Database.Accounts session.database
      (env.performWith host transaction mutation session).2.database
      ((Answer.mutation mutation (env.performWith host transaction mutation session).1).applied
        transaction) [] := by
  have hplain := session.performsPlain_performPlain env.settings transaction mutation
  rw [performWith_eq_of_running h]
  generalize session.performPlain env.settings transaction mutation = outcome at hplain ⊢
  obtain ⟨result, after⟩ := outcome
  have haccounts := Session.accounts_of_performsPlain hplain
  cases result with
  | error e => exact haccounts
  | ok _ =>
    intro hquiet
    -- The second phase finds what the first one has cached, so there is nothing to publish.
    obtain ⟨entry, hagain⟩ := hplain.resolve_again hquiet
    have hend : Database.Accounts after.database
        (after.settlePlain env.settings transaction mutation).database [] [] := by
      rw [Session.settlePlain_of_resolved hagain]
      exact Session.accounts_dropConfig
    exact (haccounts.trans hend) hquiet

end Environment

/-! ### Programs -/

/-- The outcome of a recorded script in a transaction, with a host that performs mutations. -/
def Script.outcome (env : Environment L σ) (host : Host (σ × List LogEntry))
    (transaction : TransactionId) (script : Script L (Except ProgramError Unit))
    (session : Session (σ × List LogEntry)) :
    Except ProgramError Unit × Session (σ × List LogEntry) :=
  script.recorded.run (env.recorded.performWith host transaction)
    (fun op => env.recorded.evaluator.handle op transaction) session

variable {env : Environment L σ} {host : Host (σ × List LogEntry)} {transaction : TransactionId}

/-- The answer to a mutation is noted down before the script goes on. -/
theorem Script.outcome_perform (mutation : Mutation)
    (next : Except MutationError Unit → Script L (Except ProgramError Unit))
    (session : Session (σ × List LogEntry)) :
    (perform mutation next).outcome env host transaction session =
      (next (env.recorded.performWith host transaction mutation session).1).outcome env host
        transaction
        ((env.recorded.performWith host transaction mutation session).2.noting
          (.observed (.resumes (.mutation mutation
            (env.recorded.performWith host transaction mutation session).1)) transaction
              (env.recorded.performWith host transaction mutation session).2.context)) := rfl

theorem Script.outcome_call (op : L.Op)
    (next : L.Reply op → Script L (Except ProgramError Unit))
    (session : Session (σ × List LogEntry)) :
    (call op next).outcome env host transaction session =
      (next (env.recorded.evaluator.handle (.inl op) transaction session).1).outcome env host
        transaction
        ((env.recorded.evaluator.handle (.inl op) transaction session).2.noting
          (.observed (.resumes .operation) transaction
            (env.recorded.evaluator.handle (.inl op) transaction session).2.context)) := rfl

/-- Until a mutation that a script asks for is answered and this is noted down, the log advances by
this note and the journal by the mutation. -/
theorem Session.advances_mutation (session : Session (σ × List LogEntry))
    (env : Environment L σ) (host : Host (σ × List LogEntry)) (transaction : TransactionId)
    (mutation : Mutation) (h : session.context.guard.IsRunning) :
    Session.Advances env.evaluator.KeepsDatabase session
      ((env.recorded.performWith host transaction mutation session).2.noting
        (.observed (.resumes (.mutation mutation
          (env.recorded.performWith host transaction mutation session).1)) transaction
            session.context))
      (LogEntry.ofMoments transaction session.context [.resumes (.mutation mutation
        (env.recorded.performWith host transaction mutation session).1)])
      (Answer.applied transaction (.mutation mutation
        (env.recorded.performWith host transaction mutation session).1)) [] := by
  have haccounts :=
    env.recorded.accounts_performWith_of_running host transaction mutation session h
  obtain ⟨hevaluation, hcontext⟩ :=
    env.recorded.sameRest_performWith_of_running host transaction mutation session h
  refine ⟨⟨?_, fun _ => haccounts⟩, hcontext⟩
  rw [log_noting, hevaluation]
  rfl

/-- Until an operation that a script asks for is answered and this is noted down, the log advances
by this note. -/
theorem Session.advances_operation (transaction : TransactionId)
    (hkeeps : env.evaluator.KeepsContext) (op : L.Op) (session : Session (σ × List LogEntry)) :
    Session.Advances env.evaluator.KeepsDatabase session
      ((env.recorded.evaluator.handle (.inl op) transaction session).2.noting
        (.observed (.resumes .operation) transaction session.context))
      (LogEntry.ofMoments transaction session.context [.resumes .operation]) [] [] where
  context := hkeeps op transaction (session.mapEvaluation Prod.fst)
  log := rfl
  accounts hdatabase := by
    have hsame : (env.recorded.evaluator.handle (.inl op) transaction session).2.database =
        session.database := hdatabase op transaction (session.mapEvaluation Prod.fst)
    rw [database_noting, hsame]
    exact .of_eq id rfl rfl

/-- While a recorded script runs, the log shows each answer that it gets and its end, and the
journal shows what the mutations among its requests have done. Nothing is published. -/
theorem Script.exists_answers (hkeeps : env.evaluator.KeepsContext)
    (host : Host (σ × List LogEntry)) (transaction : TransactionId)
    (script : Script L (Except ProgramError Unit)) (session : Session (σ × List LogEntry))
    (h : session.context.guard.IsRunning) :
    ∃ answers : List Answer,
      Session.Advances env.evaluator.KeepsDatabase session
        (script.outcome env host transaction session).2
        (LogEntry.ofMoments transaction session.context (answers.map Moment.resumes ++
          [.ends (script.outcome env host transaction session).1]))
        (answers.flatMap (Answer.applied transaction)) [] := by
  -- Induction on the script; the context stays the running one from request to request.
  induction script generalizing session with
  | done result => exact ⟨[], .noting _⟩
  | perform mutation next ih =>
    have hanswer := session.advances_mutation env host transaction mutation h
    obtain ⟨answers, hrest⟩ := ih
      (env.recorded.performWith host transaction mutation session).1 _ (hanswer.context ▸ h)
    have hall := hanswer.trans hrest
    rw [hanswer.context] at hall
    have hcontext :=
      (env.recorded.sameRest_performWith_of_running host transaction mutation session h).2
    rw [outcome_perform, hcontext]
    exact ⟨.mutation mutation _ :: answers, hall⟩
  | call op next ih =>
    have hanswer := session.advances_operation transaction hkeeps op
    obtain ⟨answers, hrest⟩ := ih
      (env.recorded.evaluator.handle (.inl op) transaction session).1 _ (hanswer.context ▸ h)
    have hall := hanswer.trans hrest
    rw [hanswer.context] at hall
    have hcontext : (env.recorded.evaluator.handle (.inl op) transaction session).2.context =
        session.context := hanswer.context
    rw [outcome_call, hcontext]
    exact ⟨.operation :: answers, hall⟩

/-- While a recorded program is executed, the log shows its beginning as well. -/
theorem Program.exists_answers (hkeeps : env.evaluator.KeepsContext)
    (host : Host (σ × List LogEntry)) (transaction : TransactionId) (program : Program L)
    (source : ProgramSource) (vars : Variables) (call : Option HookCall)
    (session : Session (σ × List LogEntry)) (h : session.context.guard.IsRunning) :
    ∃ answers : List Answer,
      Session.Advances env.evaluator.KeepsDatabase session
        (env.recorded.execute (env.recorded.performWith host) transaction (program.recorded source)
          vars call session).2
        (LogEntry.ofMoments transaction session.context (.begins ⟨source, vars, call⟩ ::
          (answers.map Moment.resumes ++
            [.ends (env.recorded.execute (env.recorded.performWith host) transaction
              (program.recorded source) vars call session).1])))
        (answers.flatMap (Answer.applied transaction)) [] := by
  obtain ⟨answers, hrun⟩ := (program.body vars call).exists_answers hkeeps host transaction
    (session.noting (.observed (.begins ⟨source, vars, call⟩) transaction session.context)) h
  exact ⟨answers, (Session.Advances.noting _).trans hrun⟩

/-! ### Hooks -/

namespace Environment

/-- The run of a program of a binding that lists the event. -/
theorem execution_of_event {occasion : Occasion} {phase : Phase} {binding : Binding}
    (h : binding.mode occasion.event = .event) :
    occasion.execution phase binding = ⟨binding.source,
      .ofEvent binding occasion.event phase occasion.source occasion.destination, none⟩ := by
  rw [Occasion.execution, h]

theorem execution_of_function {occasion : Occasion} {phase : Phase} {binding : Binding}
    (h : binding.mode occasion.event = .function) :
    occasion.execution phase binding =
      ⟨binding.source, .ofParameters binding, some (occasion.call phase)⟩ := by
  rw [Occasion.execution, h]

/-- A recorded program that has been compiled for a hook and is executed makes one step of it. -/
theorem exists_step_of_executed (hkeeps : env.evaluator.KeepsContext) {occasion : Occasion}
    {phase : Phase} {binding : Binding} {program : Program L} {vars : Variables}
    {call : Option HookCall}
    (hexecution : occasion.execution phase binding = ⟨binding.source, vars, call⟩)
    (hmode : binding.mode occasion.event = .event ∨ program.declares (occasion.call phase) = true)
    {session compiled : Session (σ × List LogEntry)} (h : session.context.guard.IsRunning)
    (hcompiled : Session.Advances env.evaluator.KeepsDatabase session compiled
      [.compiled binding.source (.ok program.declares)] [] []) :
    ∃ step : HookStep, step.binding = binding ∧ step.Fits occasion phase ∧
      (env.recorded.execute (env.recorded.performWith host) occasion.transaction
        (program.recorded binding.source) vars call compiled).1.mapError
          (.eval (occasion.site phase binding)) = step.result occasion phase ∧
      Session.Advances env.evaluator.KeepsDatabase session
        (env.recorded.execute (env.recorded.performWith host) occasion.transaction
          (program.recorded binding.source) vars call compiled).2
        (step.entries occasion phase session.context) (step.applied occasion) [] := by
  obtain ⟨answers, hrun⟩ := program.exists_answers hkeeps host
    occasion.transaction binding.source vars call compiled (hcompiled.context ▸ h)
  have hall := hcompiled.trans hrun
  rw [hcompiled.context, ← hexecution] at hall
  -- The result is both what the hook ends with and the last thing noted down.
  generalize (env.recorded.execute (env.recorded.performWith host) occasion.transaction
    (program.recorded binding.source) vars call compiled).1 = result at hall ⊢
  refine ⟨⟨binding, .executed program.declares answers result⟩, rfl, hmode, ?_, hall⟩
  cases result <;> rfl

/-- Running a recorded hook takes one step. -/
theorem exists_step (hkeeps : env.evaluator.KeepsContext) (host : Host (σ × List LogEntry))
    (occasion : Occasion) (phase : Phase) (binding : Binding)
    (session : Session (σ × List LogEntry))
    (h : session.context.guard.IsRunning) :
    ∃ step : HookStep, step.binding = binding ∧ step.Fits occasion phase ∧
      (env.recorded.runBinding (env.recorded.performWith host) occasion phase binding session).1 =
        step.result occasion phase ∧
      Session.Advances env.evaluator.KeepsDatabase session
        (env.recorded.runBinding (env.recorded.performWith host) occasion phase binding session).2
        (step.entries occasion phase session.context) (step.applied occasion) [] := by
  cases hcompile : env.evaluator.compile binding.source session.evaluation.1 with
  | mk result next =>
    cases result with
    | error cause =>
      have hrecorded : env.recorded.evaluator.compile binding.source session.evaluation = _ :=
        Evaluator.compile_recorded_of_error hcompile
      rw [runBinding, hrecorded]
      exact ⟨⟨binding, .refused cause⟩, rfl, trivial, rfl,
        ⟨rfl, fun _ => .of_eq id rfl rfl⟩, rfl⟩
    | ok program =>
      have hrecorded : env.recorded.evaluator.compile binding.source session.evaluation = _ :=
        Evaluator.compile_recorded_of_ok hcompile
      have hcompiled : Session.Advances env.evaluator.KeepsDatabase session
          { session with evaluation := (next, session.evaluation.2 ++
            [.compiled binding.source (.ok program.declares)]) }
          [.compiled binding.source (.ok program.declares)] [] [] :=
        ⟨⟨rfl, fun _ => .of_eq id rfl rfl⟩, rfl⟩
      rw [runBinding, hrecorded]
      dsimp only
      cases hmode : binding.mode occasion.event with
      | event =>
        dsimp only
        exact exists_step_of_executed hkeeps (execution_of_event hmode) (.inl hmode) h hcompiled
      | function =>
        dsimp only
        split
        next hdeclares =>
          exact exists_step_of_executed hkeeps (execution_of_function hmode) (.inr hdeclares) h
            hcompiled
        next hdeclares =>
          exact ⟨⟨binding, .skipped program.declares⟩, rfl,
            ⟨hmode, Bool.eq_false_iff.2 hdeclares⟩, rfl, hcompiled⟩

/-! ### Phases -/

/-- The recorded hooks that run before a change take one step each until one fails. -/
theorem exists_steps_runUntilFailure (hkeeps : env.evaluator.KeepsContext)
    (host : Host (σ × List LogEntry)) (occasion : Occasion) (bindings : List Binding)
    (session : Session (σ × List LogEntry))
    (h : session.context.guard.IsRunning) :
    ∃ steps : List HookStep, (∀ step ∈ steps, step.Fits occasion .before) ∧
      UntilFailure occasion bindings steps
        (env.recorded.runUntilFailure (env.recorded.performWith host) occasion bindings session).1 ∧
      Session.Advances env.evaluator.KeepsDatabase session
        (env.recorded.runUntilFailure (env.recorded.performWith host) occasion bindings session).2
        (steps.flatMap (HookStep.entries occasion .before session.context))
        (steps.flatMap (HookStep.applied occasion)) [] := by
  induction bindings generalizing session with
  | nil => exact ⟨[], nofun, ⟨rfl, nofun⟩, .refl⟩
  | cons binding rest ih =>
    obtain ⟨step, rfl, hfits, hresult, hstep⟩ :=
      exists_step hkeeps host occasion .before binding session h
    rw [runUntilFailure]
    generalize env.recorded.runBinding (env.recorded.performWith host) occasion .before step.binding
      session = outcome at hresult hstep
    -- The step determines the result, and the result whether the next hook runs.
    obtain ⟨result, after⟩ := outcome
    obtain rfl : result = step.result occasion .before := hresult
    unfold HookStep.result
    cases hfailure : step.failure? occasion .before with
    | some error =>
      exact ⟨[step], List.forall_mem_singleton.2 hfits,
        ⟨[], step, rest, rfl, rfl, nofun, hfailure⟩, hstep.trans .refl⟩
    | none =>
      obtain ⟨steps, hfits', huntil, hrest⟩ := ih after (hstep.context ▸ h)
      rw [hstep.context] at hrest
      exact ⟨step :: steps, List.forall_mem_cons.2 ⟨hfits, hfits'⟩, huntil.cons hfailure,
        hstep.trans hrest⟩

/-- Publishing what a hook results in publishes its failure, if it has failed. -/
theorem advances_report {tracked : Prop} {occasion : Occasion} {step : HookStep}
    {result : Except HookError Unit} {session : Session (σ × List LogEntry)}
    (h : result = step.result occasion .after) :
    Session.Advances tracked session (session.report occasion step.binding.declaredAt result)
      [] [] ((step.failure? occasion .after).toList.map
        (occasion.failure step.binding.declaredAt)) := by
  rw [h, HookStep.result]
  cases step.failure? occasion .after with
  | some error => exact ⟨.of_accounts rfl (.publish _), rfl⟩
  | none => exact .refl

/-- The recorded hooks that run after a change take one step each, and their failures are
published. -/
theorem exists_steps_runAndPublish (hkeeps : env.evaluator.KeepsContext)
    (host : Host (σ × List LogEntry)) (occasion : Occasion) (bindings : List Binding)
    (session : Session (σ × List LogEntry))
    (h : session.context.guard.IsRunning) :
    ∃ steps : List HookStep, (∀ step ∈ steps, step.Fits occasion .after) ∧
      steps.map HookStep.binding = bindings ∧
      Session.Advances env.evaluator.KeepsDatabase session
        (env.recorded.runAndPublish (env.recorded.performWith host) occasion bindings session)
        (steps.flatMap (HookStep.entries occasion .after session.context))
        (steps.flatMap (HookStep.applied occasion))
        (steps.flatMap (HookStep.published occasion)) := by
  induction bindings generalizing session with
  | nil => exact ⟨[], nofun, rfl, .refl⟩
  | cons binding rest ih =>
    obtain ⟨step, rfl, hfits, hresult, hstep⟩ :=
      exists_step hkeeps host occasion .after binding session h
    -- Whether or not the hook has failed, the next one runs.
    have hreported := hstep.trans (advances_report hresult)
    obtain ⟨steps, hfits', hbindings, hrest⟩ := ih _ (hreported.context ▸ h)
    rw [hreported.context] at hrest
    refine ⟨step :: steps, List.forall_mem_cons.2 ⟨hfits, hfits'⟩, by rw [List.map_cons, hbindings],
      ?_⟩
    have hall := hreported.trans hrest
    rw [List.append_nil, List.append_nil, ← runAndPublish_cons] at hall
    exact hall

/-- Determining a configuration adds nothing. -/
theorem adds_of_resolve {tracked : Prop} {settings : Settings} {collection : Path}
    {session resolved : Session (σ × List LogEntry)} {result : Except ConfigError CacheEntry}
    (h : session.resolve settings collection = (result, resolved)) :
    Session.Adds tracked session resolved [] [] [] :=
  .of_accounts (Session.sameRest_of_resolve h).1 (Session.accounts_of_resolve h)

variable {occasion : Occasion} {session : Session (σ × List LogEntry)} {entry : CacheEntry}

/-- Once it has been determined which hooks there are, those that run before the change take one
step each until one fails. -/
theorem exists_steps_of_runUntilFailure (hkeeps : env.evaluator.KeepsContext)
    {resolved ran : Session (σ × List LogEntry)} {bindings : List Binding}
    {result : Except HookError Unit} {answer : Except ConfigError CacheEntry}
    (hresolve : session.resolve env.settings occasion.owner = (answer, resolved))
    (hrun : env.recorded.runUntilFailure (env.recorded.performWith host) occasion bindings
      (resolved.enterRun (.running occasion.source .before) occasion.transaction) = (result, ran)) :
    ∃ steps : List HookStep, (∀ step ∈ steps, step.Fits occasion .before) ∧
      UntilFailure occasion bindings steps result ∧
      Session.Adds env.evaluator.KeepsDatabase session ran
        (steps.flatMap (HookStep.entries occasion .before
          (occasion.runningContext .before session.context)))
        (steps.flatMap (HookStep.applied occasion)) [] := by
  obtain ⟨steps, hfits, huntil, hsteps⟩ := exists_steps_runUntilFailure hkeeps host
    occasion bindings (resolved.enterRun (.running occasion.source .before) occasion.transaction)
    ⟨_, _, rfl⟩
  rw [hrun] at huntil hsteps
  have hentered : Session.Adds env.evaluator.KeepsDatabase session
      (resolved.enterRun (.running occasion.source .before) occasion.transaction) [] [] [] :=
    (adds_of_resolve hresolve).congr rfl rfl
  have hall := hentered.trans hsteps.toAdds
  rw [← (Session.sameRest_of_resolve hresolve).2]
  exact ⟨steps, hfits, huntil, hall⟩

/-- On an idle context, the recorded hooks of the first phase take one step each until one fails. -/
theorem exists_steps_runBefore (hkeeps : env.evaluator.KeepsContext)
    (host : Host (σ × List LogEntry)) (occasion : Occasion) (session : Session (σ × List LogEntry))
    (hidle : session.context.guard.marker = none)
    (hresolved : (session.resolve env.settings occasion.owner).1 = .ok entry) :
    ∃ steps : List HookStep, (∀ step ∈ steps, step.Fits occasion .before) ∧
      UntilFailure occasion entry.config.bindings steps
        (env.recorded.runBefore (env.recorded.performWith host) occasion session).1 ∧
      Session.Adds env.evaluator.KeepsDatabase session
        (env.recorded.runBefore (env.recorded.performWith host) occasion session).2
        (steps.flatMap (HookStep.entries occasion .before
          (occasion.runningContext .before session.context)))
        (steps.flatMap (HookStep.applied occasion)) [] := by
  have hruns := env.recorded.runsBefore_runBefore (env.recorded.performWith host) occasion session
  generalize (env.recorded.runBefore (env.recorded.performWith host) occasion session).1 = result,
    (env.recorded.runBefore (env.recorded.performWith host) occasion session).2 = after
    at hruns ⊢
  cases hruns with
  | unresolved hresolve =>
    cases hresolved.symm.trans (congrArg Prod.fst hresolve)
  | unbound hresolve hbindings =>
    cases hresolved.symm.trans (congrArg Prod.fst hresolve)
    exact ⟨[], nofun, ⟨hbindings.symm, nofun⟩, adds_of_resolve hresolve⟩
  -- The context is not engaged, so the hooks do run.
  | engaged _ hengaged => exact absurd hidle hengaged
  | failed hresolve _ hrun =>
    cases hresolved.symm.trans (congrArg Prod.fst hresolve)
    obtain ⟨steps, hfits, huntil, hsteps⟩ := exists_steps_of_runUntilFailure hkeeps hresolve hrun
    exact ⟨steps, hfits, huntil, hsteps.congr rfl rfl⟩
  | passed hresolve _ _ hrun =>
    cases hresolved.symm.trans (congrArg Prod.fst hresolve)
    obtain ⟨steps, hfits, huntil, hsteps⟩ := exists_steps_of_runUntilFailure hkeeps hresolve hrun
    exact ⟨steps, hfits, huntil, hsteps.congr rfl rfl⟩

/-- If nothing prevents them from running, the recorded hooks of the second phase take one step
each, and their failures are published. -/
theorem exists_steps_runAfter (hkeeps : env.evaluator.KeepsContext)
    (host : Host (σ × List LogEntry)) (occasion : Occasion) (session : Session (σ × List LogEntry))
    (hfree : session.context.guard.marker = none ∨
      session.context.guard.isSuspendedOn occasion.source = true)
    (hresolved : (session.resolve env.settings occasion.owner).1 = .ok entry) :
    ∃ steps : List HookStep, (∀ step ∈ steps, step.Fits occasion .after) ∧
      steps.map HookStep.binding = entry.config.bindings ∧
      Session.Adds env.evaluator.KeepsDatabase session
        (env.recorded.runAfter (env.recorded.performWith host) occasion session)
        (steps.flatMap (HookStep.entries occasion .after
          (occasion.runningContext .after session.context)))
        (steps.flatMap (HookStep.applied occasion))
        (steps.flatMap (HookStep.published occasion)) := by
  have hruns := env.recorded.runsAfter_runAfter (env.recorded.performWith host) occasion session
  generalize env.recorded.runAfter (env.recorded.performWith host) occasion session = after
    at hruns ⊢
  cases hruns with
  | unresolved hresolve =>
    cases hresolved.symm.trans (congrArg Prod.fst hresolve)
  | unbound hresolve hbindings =>
    cases hresolved.symm.trans (congrArg Prod.fst hresolve)
    exact ⟨[], nofun, hbindings.symm, (adds_of_resolve hresolve).congr rfl rfl⟩
  | engaged _ hengaged hother =>
    rcases hfree with hidle | hsuspended
    · exact absurd hidle hengaged
    · rw [hother] at hsuspended
      cases hsuspended
  | @ran _ resolved hresolve _ _ =>
    cases hresolved.symm.trans (congrArg Prod.fst hresolve)
    obtain ⟨steps, hfits, hbindings, hsteps⟩ := exists_steps_runAndPublish hkeeps host
      occasion entry.config.bindings
      (resolved.enterRun (.running occasion.source .after) occasion.transaction) ⟨_, _, rfl⟩
    have hentered : Session.Adds env.evaluator.KeepsDatabase session
        (resolved.enterRun (.running occasion.source .after) occasion.transaction) [] [] [] :=
      (adds_of_resolve hresolve).congr rfl rfl
    have hall := hentered.trans hsteps.toAdds
    rw [← (Session.sameRest_of_resolve hresolve).2]
    exact ⟨steps, hfits, hbindings, hall.congr rfl rfl⟩

/-- If it cannot be determined which hooks run after the change, this is published, and no hook
runs. -/
theorem adds_runAfter_of_unresolved (tracked : Prop) (env : Environment L σ)
    (host : Host (σ × List LogEntry)) (occasion : Occasion) (session : Session (σ × List LogEntry))
    {error : ConfigError}
    (hresolved : (session.resolve env.settings occasion.owner).1 = .error error) :
    Session.Adds tracked session
      (env.recorded.runAfter (env.recorded.performWith host) occasion session) [] []
      [occasion.failure occasion.owner (.config error)] := by
  have hruns := env.recorded.runsAfter_runAfter (env.recorded.performWith host) occasion session
  generalize env.recorded.runAfter (env.recorded.performWith host) occasion session = after
    at hruns ⊢
  cases hruns with
  | unresolved hresolve =>
    cases hresolved.symm.trans (congrArg Prod.fst hresolve)
    have hdiscarded :
        Session.Adds tracked session (Session.discardRun _ occasion.source) [] [] [] :=
      (adds_of_resolve hresolve).congr rfl rfl
    exact hdiscarded.trans (.of_accounts rfl (.publish _))
  | unbound hresolve =>
    cases hresolved.symm.trans (congrArg Prod.fst hresolve)
  | engaged hresolve =>
    cases hresolved.symm.trans (congrArg Prod.fst hresolve)
  | ran hresolve =>
    cases hresolved.symm.trans (congrArg Prod.fst hresolve)

end Environment

end DocTree
