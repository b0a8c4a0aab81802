import DocTree.Proofs.Engine.Course
import DocTree.Proofs.Engine.Reachable

/-!
# What mutations fire

Whatever is noted down while a mutation is performed on an idle context comes from the hooks that
are bound to it, each at most once in each phase, in its transaction and under its marker. What is
performed on behalf of these hooks fires nothing. In the end, the context is as it was.

## Main definitions

* `Environment.bindings`: the bindings that are in effect for a phase of a mutation.

## Main results

* `Environment.context_perform`: a mutation leaves its context as it is, and its hooks see the
  marker of the phase in which they run.
* `Environment.course_perform`: on an idle context, a mutation takes one of the courses.
* `Environment.perform_fires_once`: mutations asked for by hooks fire nothing, so each hook is
  executed at most once in each phase.
-/

namespace DocTree

variable {L : HookLanguage} {σ : Type}

/-! ### Bindings in effect -/

/-- The bindings that are in effect for a collection: none, if this cannot be determined. -/
def Database.bindings (database : Database) (settings : Settings) (collection : Path) :
    List Binding :=
  match (database.resolve settings collection).1 with
  | .ok entry => entry.config.bindings
  | .error _ => []

/-- The bindings that are in effect between the phases: none, if it does not come to this. -/
def Database.bindingsMidway (settings : Settings) (collection : Path) :
    Except MutationError Database → List Binding
  | .ok database => database.bindings settings collection
  | .error _ => []

/-- The bindings that are in effect for a phase of a mutation. -/
def Environment.bindings (env : Environment L σ) (phase : Phase) (transaction : TransactionId)
    (mutation : Mutation) (session : Session σ) : List Binding :=
  match phase with
  | .before => session.database.bindings env.settings mutation.source.governingCollection
  | .after => Database.bindingsMidway env.settings mutation.source.governingCollection
      (env.midway transaction mutation session)

/-- Hooks that run until one fails are those of the first bindings. -/
theorem UntilFailure.isPrefix_bindings {occasion : Occasion} {bindings : List Binding}
    {steps : List HookStep} {result : Except HookError Unit}
    (h : UntilFailure occasion bindings steps result) :
    steps.map HookStep.binding <+: bindings := by
  cases result with
  | ok _ =>
    obtain ⟨hbindings, -⟩ := h
    exact ⟨[], (List.append_nil _).trans hbindings⟩
  | error error =>
    obtain ⟨passed, failing, rest, rfl, rfl, -, -⟩ := h
    exact ⟨rest, by simp⟩

/-- On each course, what is noted down comes from the hooks of the bindings in effect. -/
theorem Course.exists_steps {settings : Settings} {occasion : Occasion} {change : JournalEntry}
    {context : Context} {bindings : List Binding} {midway : Except MutationError Database}
    {result : Except MutationError Unit} {log : List LogEntry} {applied : List JournalEntry}
    {published : List Failure}
    (h : Course settings occasion change context bindings midway result log applied published) :
    ∃ before after : List HookStep,
      before.map HookStep.binding <+: bindings ∧
      after.map HookStep.binding <+: Database.bindingsMidway settings occasion.owner midway ∧
      log = occasion.log .before context before ++ occasion.log .after context after := by
  cases h with
  | @vetoed steps _ _ hfails =>
    exact ⟨steps, [], hfails.isPrefix_bindings, List.nil_prefix, (List.append_nil _).symm⟩
  | @rejected steps _ _ hpass =>
    exact ⟨steps, [], hpass.isPrefix_bindings, List.nil_prefix, (List.append_nil _).symm⟩
  | @untold steps _ _ _ hpass =>
    exact ⟨steps, [], hpass.isPrefix_bindings, List.nil_prefix, (List.append_nil _).symm⟩
  | @told before after database entry _ hpass hmidway hresolve _ hall =>
    have hbindings : Database.bindingsMidway settings occasion.owner midway =
        entry.config.bindings := by
      rw [hmidway, Database.bindingsMidway, Database.bindings, hresolve]
    rw [hbindings, ← hall]
    exact ⟨before, after, hpass.isPrefix_bindings, List.prefix_refl _, rfl⟩

/-! ### Mutations that fire nothing -/

namespace Environment

variable {env : Environment L σ} {host : Host σ} {transaction : TransactionId}
  {mutation : Mutation} {session : Session σ}

/-- A mutation that is stopped by a lock fires nothing. -/
theorem evaluation_performWith_of_locked {error : MutationError}
    (hlocks : (session.checkLocks env.settings mutation).1 = .error error) :
    (env.performWith host transaction mutation session).2.evaluation = session.evaluation := by
  cases hcheck : session.checkLocks env.settings mutation with
  | mk result checked =>
    rw [hcheck] at hlocks
    obtain rfl : result = .error error := hlocks
    rw [performWith_eq_of_performs (.locked hcheck)]
    exact (Session.sameRest_of_checkLocks hcheck).1

/-- A mutation for which it cannot be determined what is bound to it fires nothing. -/
theorem evaluation_performWith_of_unresolved {error : ConfigError}
    (hlocks : (session.checkLocks env.settings mutation).1 = .ok ())
    (hresolved : (session.resolve env.settings mutation.source.governingCollection).1 =
      .error error) :
    (env.performWith host transaction mutation session).2.evaluation = session.evaluation := by
  cases hcheck : session.checkLocks env.settings mutation with
  | mk result checked =>
    rw [hcheck] at hlocks
    obtain rfl : result = .ok () := hlocks
    rw [← resolve_of_checkLocks hcheck] at hresolved
    cases hresolve : checked.resolve env.settings mutation.source.governingCollection with
    | mk found resolved =>
      rw [hresolve] at hresolved
      obtain rfl : found = .error error := hresolved
      have hbefore : env.runBefore host (.of transaction mutation) checked = _ :=
        runBefore_eq_of_runsBefore (.unresolved hresolve)
      rw [performWith_eq_of_performs (.prevented hcheck hbefore)]
      exact (Session.sameRest_of_resolve hresolve).1.trans (Session.sameRest_of_checkLocks hcheck).1

/-! ### What is noted down -/

/-- Recording does not change the database between the phases. -/
theorem midway_recording (hkeeps : env.evaluator.KeepsContext) (transaction : TransactionId)
    (mutation : Mutation) (session : Session σ) :
    env.recorded.midwayWith env.recorded.performNested transaction mutation session.recording =
      env.midway transaction mutation session :=
  ((simulates_performNested hkeeps).midwayWith transaction mutation session.recording).symm

theorem checkLocks_recording (session : Session σ) (settings : Settings) (mutation : Mutation) :
    (session.recording.checkLocks settings mutation).1 =
      (session.checkLocks settings mutation).1 := by
  rw [Session.recording, Session.checkLocks_mapEvaluation]

theorem performLog_of_locked (transaction : TransactionId) {error : MutationError}
    (hlocks : (session.checkLocks env.settings mutation).1 = .error error) :
    env.performLog transaction mutation session = [] := by
  rw [← checkLocks_recording] at hlocks
  exact congrArg Prod.snd (evaluation_performWith_of_locked hlocks)

/-- On a context without a marker, a mutation that passes the locks takes one of the courses. -/
theorem exists_course_performLog (hkeeps : env.evaluator.KeepsContext)
    (transaction : TransactionId) {entry : CacheEntry}
    (hidle : session.context.guard.marker = none)
    (hlocks : (session.checkLocks env.settings mutation).1 = .ok ())
    (hresolved : (session.resolve env.settings mutation.source.governingCollection).1 =
      .ok entry) :
    ∃ applied published,
      Course env.settings (.of transaction mutation) ⟨transaction, mutation⟩ session.context
        entry.config.bindings (env.midway transaction mutation session)
        (env.perform transaction mutation session).1
        (env.performLog transaction mutation session) applied published ∧
      (env.evaluator.KeepsDatabase → Database.Accounts session.database
        (env.perform transaction mutation session).2.database applied published) := by
  obtain ⟨log, applied, published, hcourse, hadds⟩ := exists_course_performWith hkeeps idleHost
    transaction mutation session.recording hidle
    ((checkLocks_recording session env.settings mutation).trans hlocks) hresolved
  have hperform : env.perform transaction mutation session = _ :=
    perform_recorded hkeeps transaction mutation session.recording
  have hmidway := midway_recording hkeeps transaction mutation session
  obtain rfl : env.performLog transaction mutation session = log := hadds.log
  rw [hperform, ← hmidway]
  exact ⟨applied, published, hcourse, hadds.accounts⟩

/-- On a context without a marker, what is noted down comes from the hooks of the bindings in
effect. -/
theorem exists_steps_performLog (hkeeps : env.evaluator.KeepsContext)
    (transaction : TransactionId) (mutation : Mutation)
    (hidle : session.context.guard.marker = none) :
    ∃ before after : List HookStep,
      before.map HookStep.binding <+: env.bindings .before transaction mutation session ∧
      after.map HookStep.binding <+: env.bindings .after transaction mutation session ∧
      env.performLog transaction mutation session =
        (Occasion.of transaction mutation).log .before session.context before ++
          (Occasion.of transaction mutation).log .after session.context after := by
  cases hlocks : (session.checkLocks env.settings mutation).1 with
  | error error =>
    -- A mutation that is stopped at once has fired no hook.
    have hlog := performLog_of_locked transaction hlocks
    exact ⟨[], [], List.nil_prefix, List.nil_prefix, hlog⟩
  | ok _ =>
    cases hresolved : (session.resolve env.settings mutation.source.governingCollection).1 with
    | error error =>
      rw [← checkLocks_recording] at hlocks
      have hlog : env.performLog transaction mutation session = [] :=
        congrArg Prod.snd (evaluation_performWith_of_unresolved hlocks hresolved)
      exact ⟨[], [], List.nil_prefix, List.nil_prefix, hlog⟩
    | ok entry =>
      obtain ⟨applied, published, hcourse, -⟩ :=
        exists_course_performLog hkeeps transaction hidle hlocks hresolved
      obtain ⟨before, after, hbefore, hafter, hlog⟩ := hcourse.exists_steps
      have hbindings : env.bindings .before transaction mutation session =
          entry.config.bindings := by
        show Database.bindings _ _ _ = _
        rw [Database.bindings, show (session.database.resolve env.settings
          mutation.source.governingCollection).1 = .ok entry from hresolved]
      rw [← hbindings] at hbefore
      exact ⟨before, after, hbefore, hafter, hlog⟩

/-- On a running context, nothing is noted down. -/
theorem performLog_of_running (transaction : TransactionId) (mutation : Mutation)
    (h : session.context.guard.IsRunning) :
    env.performLog transaction mutation session = [] :=
  congrArg Prod.snd (env.recorded.sameRest_performWith_of_running env.recorded.performNested
    transaction mutation session.recording h).1

end Environment

/-! ### Executions -/

/-- The run of a program whose beginning is noted down. -/
def LogEntry.execution? : LogEntry → Option Execution
  | .observed (.begins execution) _ _ => some execution
  | .observed (.resumes _) _ _ | .observed (.ends _) _ _ | .compiled _ _ => none

/-- No run of a program begins with an answer. -/
theorem LogEntry.execution?_ofMoments_resumes (transaction : TransactionId) (context : Context)
    (answers : List Answer) (result : Except ProgramError Unit) :
    (LogEntry.ofMoments transaction context
      (answers.map Moment.resumes ++ [.ends result])).filterMap LogEntry.execution? = [] := by
  induction answers with
  | nil => rfl
  | cons answer rest ih => exact ih

/-- A hook executes its own program, at most once. -/
theorem HookStep.executions_sublist (occasion : Occasion) (phase : Phase) (context : Context)
    (step : HookStep) :
    ((step.entries occasion phase context).filterMap LogEntry.execution?).Sublist
      [occasion.execution phase step.binding] := by
  unfold entries
  cases step.outcome with
  | refused cause => exact List.nil_sublist _
  | skipped declares => exact List.nil_sublist _
  | executed declares answers result =>
    have hrest := LogEntry.execution?_ofMoments_resumes occasion.transaction context answers result
    exact List.cons_sublist_cons.2 (List.sublist_nil.2 hrest)

/-- The hooks of a phase execute the programs of their bindings, each at most once. -/
theorem Occasion.executions_log_sublist (occasion : Occasion) (phase : Phase) (context : Context)
    {steps : List HookStep} {bindings : List Binding}
    (h : steps.map HookStep.binding <+: bindings) :
    ((occasion.log phase context steps).filterMap LogEntry.execution?).Sublist
      (bindings.map (occasion.execution phase)) := by
  -- Hooks that were not reached, and those left alone, execute nothing.
  refine List.Sublist.trans ?_ (h.sublist.map (occasion.execution phase))
  clear h
  induction steps with
  | nil => exact List.nil_sublist _
  | cons step rest ih =>
    rw [log, List.flatMap_cons, List.filterMap_append]
    exact (step.executions_sublist occasion phase _).append ih

/-- Every hook of a phase is in control under the marker of its phase. -/
theorem Occasion.context_of_mem_log {occasion : Occasion} {phase : Phase} {context other : Context}
    {steps : List HookStep} {moment : Moment} {transaction : TransactionId}
    (h : .observed moment transaction other ∈ occasion.log phase context steps) :
    transaction = occasion.transaction ∧ other = occasion.runningContext phase context := by
  obtain ⟨⟨binding, outcome⟩, -, hmem⟩ := List.mem_flatMap.1 h
  cases outcome with
  | refused cause => cases List.mem_singleton.1 hmem
  | skipped declares => cases List.mem_singleton.1 hmem
  | executed declares answers result =>
    rcases List.mem_cons.1 hmem with hcompiled | hmoment
    · cases hcompiled
    · obtain ⟨_, -, heq⟩ := List.mem_map.1 hmoment
      cases heq
      exact ⟨rfl, rfl⟩

/-! ### Mutations performed on idle and on running contexts -/

namespace Environment

variable {env : Environment L σ}

/-- A collection below the root collection. -/
def topLevel (name : String) : Path :=
  (Path.root.child? name.toList).getD .root

/-- An environment in which every program creates the same collection. -/
def copying : Environment .mutationsOnly Unit :=
  creating (topLevel "copies")

/-- A mutation that creates another collection. -/
def original : Mutation :=
  .createCollection (topLevel "originals")

/-- The run with a declared hook was made for nobody. -/
theorem context_declaringRun : declaringRun.context = .internal := by
  decide +kernel

/-- The context of the run with a declared hook is idle. -/
theorem isIdle_declaringRun : declaringRun.context.IsIdle := by
  rw [context_declaringRun]
  exact ⟨rfl, rfl⟩

/-- With a declared hook that copies what is created, creating another collection succeeds. The hook
is executed in both phases, and its second execution fails, which is published. -/
theorem perform_original_declaringRun :
    declaringRun.database.resolver.rootReady = true ∧
    (declaringRun.resolve copying.settings original.source.governingCollection).1.isOk = true ∧
    (copying.bindings .before 2 original declaringRun).length = 1 ∧
    (copying.bindings .after 2 original declaringRun).length = 1 ∧
    (copying.perform 2 original declaringRun).1.isOk = true ∧
    (copying.performLog 2 original declaringRun).length = 8 ∧
    ((copying.performLog 2 original declaringRun).filterMap LogEntry.execution?).length = 2 ∧
    (copying.perform 2 original declaringRun).2.database.failures.kept.length = 1 := by
  decide +kernel

/-- A mutation leaves its context as it is, if this is idle or running. While the hooks of a
mutation performed on an idle context are in control, the context holds the running marker of its
source and of the phase, and its transaction. -/
theorem context_perform (hkeeps : env.evaluator.KeepsContext) (transaction : TransactionId)
    (mutation : Mutation) {session : Session σ}
    (h : session.context.IsIdle ∨ session.context.guard.IsRunning) :
    (env.perform transaction mutation session).2.context = session.context ∧
    (session.context.IsIdle → ∃ before after : List HookStep,
      env.performLog transaction mutation session =
        (Occasion.of transaction mutation).log .before session.context before ++
          (Occasion.of transaction mutation).log .after session.context after) := by
  refine ⟨?_, fun hidle => ?_⟩
  · rcases h with hidle | hrunning
    · exact context_performWith hkeeps (keepsRunning_performWith env idleHost) hidle
    · exact keepsRunning_performWith env env.performNested transaction mutation session hrunning
  · obtain ⟨before, after, -, -, hlog⟩ :=
      exists_steps_performLog hkeeps transaction mutation hidle.marker_eq_none
    exact ⟨before, after, hlog⟩

/-- With a declared hook that copies what is created, a mutation leaves the context idle, and the
moments of two executions are noted down. -/
theorem context_perform_declaringRun :
    copying.evaluator.KeepsContext ∧ declaringRun.context.IsIdle ∧
    (copying.perform 2 original declaringRun).2.context = declaringRun.context ∧
    (∃ before after : List HookStep, copying.performLog 2 original declaringRun =
      (Occasion.of 2 original).log .before declaringRun.context before ++
        (Occasion.of 2 original).log .after declaringRun.context after) ∧
    (copying.performLog 2 original declaringRun).length = 8 := by
  have hkeeps : copying.evaluator.KeepsContext := copying.evaluator.keepsContext_of_mutationsOnly
  obtain ⟨hcontext, hlog⟩ := context_perform hkeeps 2 original (.inl isIdle_declaringRun)
  obtain ⟨-, -, -, -, -, hlength, -, -⟩ := perform_original_declaringRun
  exact ⟨hkeeps, isIdle_declaringRun, hcontext, hlog isIdle_declaringRun, hlength⟩

/-- After every run in which the configuration root was seen to, the database is quiescent. -/
theorem quiescent_of_reachable (hkeeps : env.evaluator.KeepsDatabase) {session : Session σ}
    (h : env.Reachable session) (hready : session.database.resolver.rootReady = true) :
    session.database.Quiescent :=
  ⟨hready, atRest_of_reachable hkeeps h⟩

/-- On an idle context, a mutation that passes the locks takes one of the courses, and the journal
and the feed of failures get what this course adds to them, and nothing else. -/
theorem course_perform (hkeeps : env.evaluator.KeepsContext)
    (hdatabase : env.evaluator.KeepsDatabase) {transaction : TransactionId} {mutation : Mutation}
    {session : Session σ} {entry : CacheEntry}
    (hquiet : session.database.Quiescent) (hidle : session.context.IsIdle)
    (hlocks : (session.checkLocks env.settings mutation).1 = .ok ())
    (hresolved : (session.resolve env.settings mutation.source.governingCollection).1 =
      .ok entry) :
    ∃ applied published,
      Course env.settings (.of transaction mutation) ⟨transaction, mutation⟩ session.context
        entry.config.bindings (env.midway transaction mutation session)
        (env.perform transaction mutation session).1
        (env.performLog transaction mutation session) applied published ∧
      (env.perform transaction mutation session).2.database.store.journal =
        session.database.store.journal ++ applied ∧
      (env.perform transaction mutation session).2.database.failures =
        published.foldl FailureFeed.publish session.database.failures := by
  obtain ⟨applied, published, hcourse, haccounts⟩ :=
    exists_course_performLog hkeeps transaction hidle.marker_eq_none hlocks hresolved
  obtain ⟨-, hjournal, hfailures⟩ := haccounts hdatabase hquiet
  exact ⟨applied, published, hcourse, hjournal, hfailures⟩

/-- With a declared hook that creates a collection, creating another one takes the course on which
the hook passes before the change and fails after it. -/
theorem course_perform_declaringRun :
    copying.evaluator.KeepsContext ∧ copying.evaluator.KeepsDatabase ∧
    declaringRun.database.Quiescent ∧ declaringRun.context.IsIdle ∧
    (declaringRun.checkLocks copying.settings original).1 = .ok () ∧
    (∃ entry applied published,
      (declaringRun.resolve copying.settings original.source.governingCollection).1 = .ok entry ∧
      Course copying.settings (.of 2 original) ⟨2, original⟩ declaringRun.context
        entry.config.bindings (copying.midway 2 original declaringRun)
        (copying.perform 2 original declaringRun).1 (copying.performLog 2 original declaringRun)
        applied published) ∧
    (copying.perform 2 original declaringRun).1.isOk = true ∧
    (copying.perform 2 original declaringRun).2.database.failures.kept.length = 1 := by
  have hkeeps : copying.evaluator.KeepsContext := copying.evaluator.keepsContext_of_mutationsOnly
  have hdatabase : copying.evaluator.KeepsDatabase :=
    copying.evaluator.keepsDatabase_of_mutationsOnly
  obtain ⟨hready, hresolved, -, -, hok, -, -, hfailures⟩ := perform_original_declaringRun
  have hquiet : declaringRun.database.Quiescent :=
    quiescent_of_reachable (Evaluator.keepsDatabase_of_mutationsOnly _) reachable_declaringRun
      hready
  have hlocks : (declaringRun.checkLocks copying.settings original).1 = .ok () := by
    rw [Session.checkLocks_of_internal (by rw [context_declaringRun]; rfl)]
  -- The entry is too large to be written out, so it is taken from the run.
  cases hentry : (declaringRun.resolve copying.settings original.source.governingCollection).1 with
  | error error =>
    rw [hentry] at hresolved
    cases hresolved
  | ok entry =>
    obtain ⟨applied, published, hcourse, -⟩ :=
      course_perform hkeeps hdatabase hquiet isIdle_declaringRun hlocks hentry
    exact ⟨hkeeps, hdatabase, hquiet, isIdle_declaringRun, hlocks,
      ⟨entry, applied, published, rfl, hcourse⟩, hok, hfailures⟩

/-- Hooks do not fire hooks. A mutation that a running hook asks for is performed like any other;
on its context this comes down to the three steps, and nothing is compiled or executed. Therefore
whatever is executed for a mutation performed on a context without a marker is a hook of the
bindings in effect, at most once in each phase, in the transaction and while hooks run. -/
theorem perform_fires_once (hkeeps : env.evaluator.KeepsContext) (transaction : TransactionId)
    (mutation : Mutation) (session : Session σ) :
    env.perform = env.performWith env.perform ∧
    (session.context.guard.IsRunning →
      (env.perform transaction mutation session).1 =
        (session.performPlain env.settings transaction mutation).1 ∧
      (env.perform transaction mutation session).2.database.store =
        (session.performPlain env.settings transaction mutation).2.database.store ∧
      session.SameRest (env.perform transaction mutation session).2 ∧
      env.performLog transaction mutation session = []) ∧
    (session.context.guard.marker = none →
      ((env.performLog transaction mutation session).filterMap LogEntry.execution?).Sublist
        ((env.bindings .before transaction mutation session).map
            ((Occasion.of transaction mutation).execution .before) ++
          (env.bindings .after transaction mutation session).map
            ((Occasion.of transaction mutation).execution .after)) ∧
      ∀ moment observed context,
        .observed moment observed context ∈ env.performLog transaction mutation session →
        observed = transaction ∧ context.isRunningHooks = true ∧ context.guard.IsRunning) := by
  refine ⟨perform_eq_performWith_perform hkeeps, fun hrunning => ⟨?_, ?_, ?_, ?_⟩, fun hidle => ?_⟩
  · exact fst_performWith_of_running _ _ _ _ _ hrunning
  · exact store_performWith_of_running _ _ _ _ _ hrunning
  · exact sameRest_performWith_of_running _ _ _ _ _ hrunning
  · exact performLog_of_running transaction mutation hrunning
  · obtain ⟨before, after, hbefore, hafter, hlog⟩ :=
      exists_steps_performLog hkeeps transaction mutation hidle
    rw [hlog]
    refine ⟨?_, fun moment observed context hmem => ?_⟩
    · rw [List.filterMap_append]
      exact (Occasion.executions_log_sublist _ _ _ hbefore).append
        (Occasion.executions_log_sublist _ _ _ hafter)
    · rcases List.mem_append.1 hmem with hmem | hmem
      · obtain ⟨rfl, rfl⟩ := Occasion.context_of_mem_log hmem
        exact ⟨rfl, rfl, _, _, rfl⟩
      · obtain ⟨rfl, rfl⟩ := Occasion.context_of_mem_log hmem
        exact ⟨rfl, rfl, _, _, rfl⟩

/-- With a declared hook that creates a collection itself, creating another one executes the hook
twice. -/
theorem perform_fires_once_declaringRun :
    copying.evaluator.KeepsContext ∧
    ((copying.performLog 2 original declaringRun).filterMap LogEntry.execution?).Sublist
      ((copying.bindings .before 2 original declaringRun).map
          ((Occasion.of 2 original).execution .before) ++
        (copying.bindings .after 2 original declaringRun).map
          ((Occasion.of 2 original).execution .after)) ∧
    ((copying.performLog 2 original declaringRun).filterMap LogEntry.execution?).length = 2 ∧
    (copying.bindings .before 2 original declaringRun).length = 1 ∧
    (copying.bindings .after 2 original declaringRun).length = 1 := by
  have hkeeps : copying.evaluator.KeepsContext := copying.evaluator.keepsContext_of_mutationsOnly
  obtain ⟨-, -, hfired⟩ := perform_fires_once hkeeps 2 original declaringRun
  obtain ⟨-, -, hbefore, hafter, -, -, hexecuted, -⟩ := perform_original_declaringRun
  exact ⟨hkeeps, (hfired isIdle_declaringRun.marker_eq_none).1, hexecuted, hbefore, hafter⟩

end Environment

end DocTree
