import DocTree.Proofs.Engine.Phases

/-!
# The course of a mutation

A mutation that is performed on an idle context takes one of four courses. A hook prevents it; the
store rejects it; it is applied, but the hooks of the second phase cannot be determined; or it is
applied and they all run. Each course fixes the result, what is noted down, and what is added to the
journal and to the feed of failures.

## Main definitions

* `Environment.midway`: the database between the phases.
* `Occasion.log`: what is noted down in a phase.
* `Course`: the four courses.

## Main results

* `Environment.exists_course_performWith`: a mutation takes one of the courses.
* `Environment.exists_steps_performWith`: whatever is noted down comes from the hooks of the two
  phases.
-/

namespace DocTree

variable {L L' : HookLanguage} {σ τ : Type}

/-! ### Between the phases -/

namespace Environment

/-- The database when the store has just applied a mutation and no hook was told, or why this does
not come to pass. -/
def midwayWith (env : Environment L σ) (host : Host σ) (transaction : TransactionId)
    (mutation : Mutation) (session : Session σ) : Except MutationError Database :=
  match session.checkLocks env.settings mutation with
  | (.error e, _) => .error e
  | (.ok (), session) =>
    match env.runBefore host (.of transaction mutation) session with
    | (.error e, _) => .error (.trigger e)
    | (.ok (), session) =>
      match session.database.store.perform transaction mutation with
      | .error e => .error (.storage e)
      | .ok store => .ok { session.database with store }

/-- The database between the phases of a mutation. -/
def midway (env : Environment L σ) : TransactionId → Mutation → Session σ →
    Except MutationError Database :=
  env.midwayWith env.performNested

section

variable {env : Environment L σ} {host : Host σ} {transaction : TransactionId}
  {mutation : Mutation} {session checked told : Session σ}

/-- A lock keeps a mutation from coming midway. -/
theorem midwayWith_of_locked {error : MutationError}
    (hlocks : session.checkLocks env.settings mutation = (.error error, checked)) :
    env.midwayWith host transaction mutation session = .error error := by
  rw [midwayWith, hlocks]

theorem midwayWith_of_prevented {error : HookError}
    (hlocks : session.checkLocks env.settings mutation = (.ok (), checked))
    (hbefore : env.runBefore host (.of transaction mutation) checked = (.error error, told)) :
    env.midwayWith host transaction mutation session = .error (.trigger error) := by
  rw [midwayWith, hlocks]
  dsimp only
  rw [hbefore]

theorem midwayWith_of_rejected {error : StoreError}
    (hlocks : session.checkLocks env.settings mutation = (.ok (), checked))
    (hbefore : env.runBefore host (.of transaction mutation) checked = (.ok (), told))
    (hstore : told.database.store.perform transaction mutation = .error error) :
    env.midwayWith host transaction mutation session = .error (.storage error) := by
  rw [midwayWith, hlocks]
  dsimp only
  rw [hbefore]
  dsimp only
  rw [hstore]

theorem midwayWith_of_applied {store : Store}
    (hlocks : session.checkLocks env.settings mutation = (.ok (), checked))
    (hbefore : env.runBefore host (.of transaction mutation) checked = (.ok (), told))
    (hstore : told.database.store.perform transaction mutation = .ok store) :
    env.midwayWith host transaction mutation session = .ok { told.database with store } := by
  rw [midwayWith, hlocks]
  dsimp only
  rw [hbefore]
  dsimp only
  rw [hstore]

end

end Environment

/-- Simulation carries over to the database between the phases. -/
theorem Simulates.midwayWith {detailed : Environment L σ} {plain : Environment L' τ} {f : σ → τ}
    {host : Host σ} {host' : Host τ} (hsim : Simulates detailed plain f host host')
    (transaction : TransactionId) (mutation : Mutation) (session : Session σ) :
    plain.midwayWith host' transaction mutation (session.mapEvaluation f) =
      detailed.midwayWith host transaction mutation session := by
  have hbetween : ∀ {checked result told},
      detailed.runBefore host (.of transaction mutation) checked = (result, told) →
      plain.runBefore host' (.of transaction mutation) (checked.mapEvaluation f) =
        (result, told.mapEvaluation f) := by
    intro checked result told hbefore
    rw [hsim.runBefore, hbefore]
  have hperforms := detailed.performs_performWith host transaction mutation session
  generalize (detailed.performWith host transaction mutation session).1 = result,
    (detailed.performWith host transaction mutation session).2 = after at hperforms
  cases hperforms with
  | locked hlocks =>
    rw [Environment.midwayWith_of_locked hlocks,
      Environment.midwayWith_of_locked (hsim.checkLocks hlocks)]
  | prevented hlocks hbefore =>
    rw [Environment.midwayWith_of_prevented hlocks hbefore,
      Environment.midwayWith_of_prevented (hsim.checkLocks hlocks) (hbetween hbefore)]
  | rejected hlocks hbefore hstore =>
    rw [Environment.midwayWith_of_rejected hlocks hbefore hstore,
      Environment.midwayWith_of_rejected (hsim.checkLocks hlocks) (hbetween hbefore) hstore]
  | applied hlocks hbefore hstore =>
    rw [Environment.midwayWith_of_applied hlocks hbefore hstore,
      Environment.midwayWith_of_applied (hsim.checkLocks hlocks) (hbetween hbefore) hstore]
    rfl

/-! ### Courses -/

/-- What is noted down in a phase that began on a context, if its hooks take given steps. -/
def Occasion.log (occasion : Occasion) (phase : Phase) (context : Context)
    (steps : List HookStep) : List LogEntry :=
  steps.flatMap (HookStep.entries occasion phase (occasion.runningContext phase context))

/-- The courses that a mutation can take on an idle context, given the bindings that are in effect
at first and the database between the phases. They fix the result, what is noted down, what is
added to the journal, and what is published. -/
inductive Course (settings : Settings) (occasion : Occasion) (change : JournalEntry)
    (context : Context) (bindings : List Binding) (midway : Except MutationError Database) :
    Except MutationError Unit → List LogEntry → List JournalEntry → List Failure → Prop where
  /-- A hook fails before the change: nothing happens after it, and nothing is published. -/
  | vetoed {steps : List HookStep} {error : HookError}
      (hfits : ∀ step ∈ steps, step.Fits occasion .before)
      (hfails : UntilFailure occasion bindings steps (.error error))
      (hmidway : midway = .error (.trigger error)) :
      Course settings occasion change context bindings midway (.error (.trigger error))
        (occasion.log .before context steps)
        (steps.flatMap (HookStep.applied occasion)) []
  /-- All hooks pass, and the store rejects the mutation: no hook is told, and nothing is
  published. -/
  | rejected {steps : List HookStep} {error : StoreError}
      (hfits : ∀ step ∈ steps, step.Fits occasion .before)
      (hpass : UntilFailure occasion bindings steps (.ok ()))
      (hmidway : midway = .error (.storage error)) :
      Course settings occasion change context bindings midway (.error (.storage error))
        (occasion.log .before context steps)
        (steps.flatMap (HookStep.applied occasion)) []
  /-- The mutation is applied, but it cannot be determined which hooks are to be told: this alone is
  published. -/
  | untold {steps : List HookStep} {database : Database} {error : ConfigError}
      (hfits : ∀ step ∈ steps, step.Fits occasion .before)
      (hpass : UntilFailure occasion bindings steps (.ok ()))
      (hmidway : midway = .ok database)
      (hresolve : (database.resolve settings occasion.owner).1 = .error error) :
      Course settings occasion change context bindings midway (.ok ())
        (occasion.log .before context steps)
        (steps.flatMap (HookStep.applied occasion) ++ [change])
        [occasion.failure occasion.owner (.config error)]
  /-- The mutation is applied, and all hooks of the configuration that is in effect then are told,
  whether or not others fail. The failures of those that do are published, in order. -/
  | told {before after : List HookStep} {database : Database} {entry : CacheEntry}
      (hfits : ∀ step ∈ before, step.Fits occasion .before)
      (hpass : UntilFailure occasion bindings before (.ok ()))
      (hmidway : midway = .ok database)
      (hresolve : (database.resolve settings occasion.owner).1 = .ok entry)
      (hfits' : ∀ step ∈ after, step.Fits occasion .after)
      (hall : after.map HookStep.binding = entry.config.bindings) :
      Course settings occasion change context bindings midway (.ok ())
        (occasion.log .before context before ++ occasion.log .after context after)
        (before.flatMap (HookStep.applied occasion) ++
          change :: after.flatMap (HookStep.applied occasion))
        (after.flatMap (HookStep.published occasion))

namespace Environment

variable {env : Environment L σ} {transaction : TransactionId} {mutation : Mutation}
  {session : Session (σ × List LogEntry)} {entry : CacheEntry}

/-- Checking locks adds nothing. -/
theorem adds_of_checkLocks {tracked : Prop} {settings : Settings}
    {result : Except MutationError Unit} {checked : Session (σ × List LogEntry)}
    (h : session.checkLocks settings mutation = (result, checked)) :
    Session.Adds tracked session checked [] [] [] :=
  .of_accounts (Session.sameRest_of_checkLocks h).1 (Session.accounts_of_checkLocks h)

/-- Checking locks does not matter for which configuration is in effect. -/
theorem resolve_of_checkLocks {settings : Settings} {result : Except MutationError Unit}
    {checked : Session σ} {session : Session σ}
    (h : session.checkLocks settings mutation = (result, checked)) (collection : Path) :
    (checked.resolve settings collection).1 = (session.resolve settings collection).1 := by
  obtain ⟨locks, rfl⟩ := Session.eq_of_checkLocks h
  rfl

/-- Once the locks are checked, the recorded hooks of the first phase take one step each until one
fails. -/
theorem exists_steps_of_checkLocks (hkeeps : env.evaluator.KeepsContext)
    {host : Host (σ × List LogEntry)} (hidle : session.context.guard.marker = none)
    (hresolved : (session.resolve env.settings mutation.source.governingCollection).1 = .ok entry)
    {checked told : Session (σ × List LogEntry)} {result : Except HookError Unit}
    (hlocks : session.checkLocks env.settings mutation = (.ok (), checked))
    (hbefore : env.recorded.runBefore (env.recorded.performWith host) (.of transaction mutation)
      checked = (result, told)) :
    ∃ steps : List HookStep, (∀ step ∈ steps, step.Fits (.of transaction mutation) .before) ∧
      UntilFailure (.of transaction mutation) entry.config.bindings steps result ∧
      Session.Adds env.evaluator.KeepsDatabase session told
        ((Occasion.of transaction mutation).log .before session.context steps)
        (steps.flatMap (HookStep.applied (.of transaction mutation))) [] := by
  -- Checking locks has left the context and the configuration as they were.
  have hcontext := (Session.sameRest_of_checkLocks hlocks).2
  have hsteps := exists_steps_runBefore hkeeps host (.of transaction mutation) checked
    (hcontext ▸ hidle) ((resolve_of_checkLocks hlocks _).trans hresolved)
  rw [hbefore, hcontext] at hsteps
  obtain ⟨steps, hfits, huntil, hadds⟩ := hsteps
  exact ⟨steps, hfits, huntil, (adds_of_checkLocks hlocks).trans hadds⟩

/-- A recorded mutation that was applied takes one of the courses on which the hooks of the second
phase are to be told. -/
theorem exists_course_of_applied (hkeeps : env.evaluator.KeepsContext)
    {host : Host (σ × List LogEntry)} {context : Context} (hidle : context.guard.marker = none)
    {bindings : List Binding} {midway : Except MutationError Database}
    {told : Session (σ × List LogEntry)} {steps : List HookStep} {store : Store}
    (hfits : ∀ step ∈ steps, step.Fits (.of transaction mutation) .before)
    (hpass : UntilFailure (.of transaction mutation) bindings steps (.ok ()))
    (hbehind : (Occasion.of transaction mutation).LeavesBehind context told.context)
    (hadds : Session.Adds env.evaluator.KeepsDatabase session told
      ((Occasion.of transaction mutation).log .before context steps)
      (steps.flatMap (HookStep.applied (.of transaction mutation))) [])
    (hstore : told.database.store.perform transaction mutation = .ok store)
    (hmidway : midway = .ok { told.database with store }) :
    ∃ log applied published,
      Course env.settings (.of transaction mutation) ⟨transaction, mutation⟩ context bindings
        midway (.ok ()) log applied published ∧
      Session.Adds env.evaluator.KeepsDatabase session
        (((env.recorded.runAfter (env.recorded.performWith host) (.of transaction mutation)
          { told with database := { told.database with store } }).dropLocks mutation).dropConfig
            env.settings transaction mutation) log applied published := by
  have hchange : Session.Adds env.evaluator.KeepsDatabase told
      { told with database := { told.database with store } } [] [⟨transaction, mutation⟩] [] :=
    .of_accounts rfl (.perform hstore)
  have hfinish : ∀ ran : Session (σ × List LogEntry),
      Session.Adds env.evaluator.KeepsDatabase ran
        ((ran.dropLocks mutation).dropConfig env.settings transaction mutation) [] [] [] :=
    fun ran => .of_accounts rfl Session.accounts_dropConfig
  -- The configuration is determined anew on the store that the mutation has changed.
  cases hresolve : ({ told.database with store }.resolve env.settings
      mutation.source.governingCollection).1 with
  | error error =>
    have hafter := adds_runAfter_of_unresolved env.evaluator.KeepsDatabase env host
      (.of transaction mutation) { told with database := { told.database with store } } hresolve
    have hall := hadds.trans (hchange.trans (hafter.trans (hfinish _)))
    refine ⟨_, _, _, .untold hfits hpass hmidway hresolve, ?_⟩
    simp only [List.append_nil, List.nil_append] at hall
    exact hall
  | ok entry =>
    obtain ⟨after, hfits', hbindings, hafter⟩ := exists_steps_runAfter hkeeps host
      (.of transaction mutation) { told with database := { told.database with store } }
      (hbehind.free hidle) hresolve
    rw [hbehind.runningContext] at hafter
    have hall := hadds.trans (hchange.trans (hafter.trans (hfinish _)))
    refine ⟨_, _, _, .told hfits hpass hmidway hresolve hfits' hbindings, ?_⟩
    simp only [List.append_nil, List.nil_append] at hall
    exact hall

/-- On a context without a marker, a recorded mutation that passes the locks takes one of the
courses. -/
theorem exists_course_performWith (hkeeps : env.evaluator.KeepsContext)
    (host : Host (σ × List LogEntry)) (transaction : TransactionId) (mutation : Mutation)
    (session : Session (σ × List LogEntry)) (hidle : session.context.guard.marker = none)
    (hlocks : (session.checkLocks env.settings mutation).1 = .ok ())
    (hresolved : (session.resolve env.settings mutation.source.governingCollection).1 =
      .ok entry) :
    ∃ log applied published,
      Course env.settings (.of transaction mutation) ⟨transaction, mutation⟩ session.context
        entry.config.bindings
        (env.recorded.midwayWith (env.recorded.performWith host) transaction mutation session)
        (env.recorded.performWith (env.recorded.performWith host) transaction mutation session).1
        log applied published ∧
      Session.Adds env.evaluator.KeepsDatabase session
        (env.recorded.performWith (env.recorded.performWith host) transaction mutation session).2
        log applied published := by
  have hperforms := env.recorded.performs_performWith (env.recorded.performWith host) transaction
    mutation session
  generalize (env.recorded.performWith (env.recorded.performWith host) transaction mutation
      session).1 = result,
    (env.recorded.performWith (env.recorded.performWith host) transaction mutation
      session).2 = after at hperforms ⊢
  cases hperforms with
  | locked hlocked =>
    rw [show session.checkLocks env.settings mutation = _ from hlocked] at hlocks
    cases hlocks
  | prevented hlocks hbefore =>
    obtain ⟨steps, hfits, huntil, hadds⟩ :=
      exists_steps_of_checkLocks hkeeps hidle hresolved hlocks hbefore
    exact ⟨_, _, _, .vetoed hfits huntil (midwayWith_of_prevented hlocks hbefore), hadds⟩
  | rejected hlocks hbefore hstore =>
    obtain ⟨steps, hfits, huntil, hadds⟩ :=
      exists_steps_of_checkLocks hkeeps hidle hresolved hlocks hbefore
    exact ⟨_, _, _, .rejected hfits huntil (midwayWith_of_rejected hlocks hbefore hstore),
      hadds.congr rfl rfl⟩
  | applied hlocks hbefore hstore =>
    obtain ⟨steps, hfits, huntil, hadds⟩ :=
      exists_steps_of_checkLocks hkeeps hidle hresolved hlocks hbefore
    -- What the first phase has left behind does not keep the second one from running.
    have hbehind := context_runBefore_of_ok (keepsContext_recorded hkeeps)
      (keepsRunning_performWith env.recorded host) hbefore
    rw [(Session.sameRest_of_checkLocks hlocks).2] at hbehind
    exact exists_course_of_applied hkeeps hidle hfits huntil hbehind hadds hstore
      (midwayWith_of_applied hlocks hbefore hstore)

end Environment

end DocTree
