import DocTree.Proofs.Engine.Performing

/-!
# What running hooks can change

A hook gets at a session in three ways: it is compiled, it asks for mutations, and it asks for the
operations of its language. What none of these steps can break holds after any script, and after
any number of hooks.

## Main definitions

* `Evaluator.KeepsDatabase` and `Evaluator.KeepsContext`: the operations of a language leave the
  database or the context alone.
* `Database.ReadyWith`: the configuration root was seen to, and the store has a property.
* `Environment.HookInvariant`: a property of sessions that no step of a hook can break.
* `Environment.SessionInvariant`: a property of sessions that holds throughout both phases.
* `Environment.DatabaseInvariant`: a property of databases that holds throughout both phases.

## Main results

* `Script.run_invariant`: what no request can break holds after a script.
* `Environment.HookInvariant.runUntilFailure` and `Environment.HookInvariant.runAndPublish`: what no
  step of a hook can break holds after the hooks of a phase.
* `Environment.SessionInvariant.runBefore` and `Environment.SessionInvariant.runAfter`: the same for
  the whole phase, the determination of its hooks included.
* `Environment.SessionInvariant.performWith`: what holds before a mutation is finished.
* `Environment.DatabaseInvariant.performWith_of_checked` and
  `Environment.DatabaseInvariant.performWith`: what holds after a mutation was performed with its
  hooks.
-/

namespace DocTree

variable {L : HookLanguage} {α σ : Type}

/-- The operations of the language leave the database alone. -/
def Evaluator.KeepsDatabase (evaluator : Evaluator L σ) : Prop :=
  ∀ op transaction session,
    (evaluator.handle op transaction session).2.database = session.database

/-- The operations of the language leave the context alone. -/
def Evaluator.KeepsContext (evaluator : Evaluator L σ) : Prop :=
  ∀ op transaction session, (evaluator.handle op transaction session).2.context = session.context

/-- Programs that ask for mutations only have no operations that could change the database. -/
theorem Evaluator.keepsDatabase_of_mutationsOnly (evaluator : Evaluator .mutationsOnly σ) :
    evaluator.KeepsDatabase :=
  fun op => nomatch op

/-- Programs that ask for mutations only have no operations that could change the context. -/
theorem Evaluator.keepsContext_of_mutationsOnly (evaluator : Evaluator .mutationsOnly σ) :
    evaluator.KeepsContext :=
  fun op => nomatch op

/-- The evaluator for which every program creates a collection, and fails if it cannot. -/
def Evaluator.creating (path : Path) : Evaluator .mutationsOnly Unit where
  compile _ _ := (.ok {
    declares := fun _ => true
    body := fun _ _ => .perform (.createCollection path) fun reply =>
      .done (reply.mapError fun error => .eval error.message) }, ())
  handle op := nomatch op

/-- What no request can break holds after a script if it holds before. -/
theorem Script.run_invariant {P : σ → Prop} {host : Mutation → σ → Except MutationError Unit × σ}
    {handle : (op : L.Op) → σ → L.Reply op × σ}
    (hhost : ∀ mutation state, P state → P (host mutation state).2)
    (hhandle : ∀ op state, P state → P (handle op state).2) (script : Script L α) {state : σ}
    (h : P state) : P (script.run host handle state).2 := by
  induction script generalizing state with
  | done value => exact h
  | perform mutation next ih => exact ih _ (hhost mutation state h)
  | call op next ih => exact ih _ (hhandle op state h)

/-- What is left to do when it has turned out how a mutation goes: if it was applied, then the locks
on what it has removed and the configuration that it makes obsolete are dropped. -/
def Session.finish (session : Session σ) (settings : Settings) (transaction : TransactionId)
    (mutation : Mutation) : Except MutationError Unit → Session σ
  | .ok () => (session.dropLocks mutation).dropConfig settings transaction mutation
  | .error _ => session

namespace Database

variable {settings : Settings} {database : Database} {P : Store → Prop}

/-- The configuration root was seen to, and the store has a property. -/
def ReadyWith (P : Store → Prop) (database : Database) : Prop :=
  database.resolver.rootReady = true ∧ P database.store

/-- The configuration root is not created again, so determining a configuration leaves the store as
it is. -/
theorem ReadyWith.resolve (h : database.ReadyWith P) (collection : Path) :
    (database.resolve settings collection).2.ReadyWith P := by
  have hstore : (database.resolve settings collection).2.store = database.store :=
    Resolver.store_resolve_of_ready h.1
  refine ⟨Resolver.rootReady_resolve_of_ready h.1, ?_⟩
  rw [hstore]
  exact h.2

end Database

namespace Environment

variable {env : Environment L σ} {host : Host σ} {transaction : TransactionId}

/-! ### What holds after hooks -/

section

variable {occasion : Occasion} {phase : Phase} {P : Session σ → Prop}

/-- What holds once a program was compiled, and after it was executed if it was, holds after the
hook of its binding has run. -/
theorem runBinding_invariant {binding : Binding} {session : Session σ}
    (hcompiled : P { session with
      evaluation := (env.evaluator.compile binding.source session.evaluation).2 })
    (hexecuted : ∀ program evaluation vars call,
      env.evaluator.compile binding.source session.evaluation = (.ok program, evaluation) →
      P (env.execute host occasion.transaction program vars call { session with evaluation }).2) :
    P (env.runBinding host occasion phase binding session).2 := by
  unfold runBinding
  dsimp only
  split
  next hcompile =>
    rw [hcompile] at hcompiled
    exact hcompiled
  next program evaluation hcompile =>
    rw [hcompile] at hcompiled
    split
    · exact hexecuted _ _ _ _ hcompile
    · split
      · exact hexecuted _ _ _ _ hcompile
      · exact hcompiled

/-- What no hook that runs before a change can break holds after they have run until one fails. -/
theorem runUntilFailure_invariant (hbinding : ∀ binding session, P session →
      P (env.runBinding host occasion .before binding session).2)
    (bindings : List Binding) (session : Session σ) (h : P session) :
    P (env.runUntilFailure host occasion bindings session).2 := by
  induction bindings generalizing session with
  | nil => exact h
  | cons binding rest ih =>
    -- A hook that fails has had its effects all the same.
    have hstep := hbinding binding session h
    rw [runUntilFailure]
    split
    next hrun =>
      rw [hrun] at hstep
      exact hstep
    next hrun =>
      rw [hrun] at hstep
      exact ih _ hstep

/-- What neither a hook that runs after a change nor the publication of its failure can break holds
after all of them have run. -/
theorem runAndPublish_invariant (hbinding : ∀ binding session, P session →
      P (env.runBinding host occasion .after binding session).2)
    (hpublish : ∀ declaredAt error session, P session →
      P (session.publish occasion declaredAt error))
    (bindings : List Binding) (session : Session σ) (h : P session) :
    P (env.runAndPublish host occasion bindings session) := by
  induction bindings generalizing session with
  | nil => exact h
  | cons binding rest ih =>
    have hstep := hbinding binding session h
    rw [runAndPublish]
    split
    next hrun =>
      rw [hrun] at hstep
      exact ih _ (hpublish _ _ _ hstep)
    next hrun =>
      rw [hrun] at hstep
      exact ih _ hstep

end

/-- A property of sessions that no step of a hook running in a transaction can break. -/
structure HookInvariant (env : Environment L σ) (host : Host σ) (transaction : TransactionId)
    (P : Session σ → Prop) : Prop where
  /-- Compiling a program does not break it. -/
  compile : ∀ source session, P session →
    P { session with evaluation := (env.evaluator.compile source session.evaluation).2 }
  /-- An operation of the language does not break it. -/
  handle : ∀ op session, P session → P (env.evaluator.handle op transaction session).2
  /-- A mutation asked for by a hook does not break it. -/
  host : ∀ mutation session, P session → P (host transaction mutation session).2

namespace HookInvariant

variable {P : Session σ → Prop}

/-- Carrying out a program does not break what no step of a hook can break. -/
theorem execute (hinv : HookInvariant env host transaction P) (program : Program L)
    (vars : Variables) (call : Option HookCall) {session : Session σ} (h : P session) :
    P (env.execute host transaction program vars call session).2 :=
  Script.run_invariant hinv.host hinv.handle _ h

/-- Running a hook does not break what no step of a hook can break. -/
theorem runBinding (occasion : Occasion) (hinv : HookInvariant env host occasion.transaction P)
    (phase : Phase) (binding : Binding) (session : Session σ) (h : P session) :
    P (env.runBinding host occasion phase binding session).2 := by
  have hcompiled := hinv.compile binding.source session h
  refine runBinding_invariant hcompiled fun program evaluation vars call hcompile => ?_
  rw [hcompile] at hcompiled
  exact hinv.execute program vars call hcompiled

/-- Running hooks until one fails does not break what no step of a hook can break. -/
theorem runUntilFailure (occasion : Occasion)
    (hinv : HookInvariant env host occasion.transaction P) (bindings : List Binding)
    (session : Session σ) (h : P session) :
    P (env.runUntilFailure host occasion bindings session).2 :=
  runUntilFailure_invariant (hinv.runBinding occasion .before) bindings session h

/-- Running hooks and publishing their failures does not break what neither a step of a hook nor
the publication of a failure can break. -/
theorem runAndPublish (occasion : Occasion)
    (hinv : HookInvariant env host occasion.transaction P)
    (hpublish : ∀ declaredAt error session, P session →
      P (session.publish occasion declaredAt error))
    (bindings : List Binding) (session : Session σ) (h : P session) :
    P (env.runAndPublish host occasion bindings session) :=
  runAndPublish_invariant (hinv.runBinding occasion .after) hpublish bindings session h

end HookInvariant

/-- A property of sessions that nothing done for the hooks of a transaction can break: neither
running one of them, nor determining which hooks there are, nor publishing failures. The context
does not matter for it. -/
structure SessionInvariant (env : Environment L σ) (host : Host σ) (transaction : TransactionId)
    (P : Session σ → Prop) : Prop where
  /-- A hook does not break it. -/
  binding : ∀ occasion : Occasion, occasion.transaction = transaction →
    ∀ phase binding session, P session → P (env.runBinding host occasion phase binding session).2
  /-- Determining a configuration does not break it. -/
  resolve : ∀ session collection, P session → P (session.resolve env.settings collection).2
  /-- The feed of failures does not matter for it. -/
  failures : ∀ session failures, P session →
    P { session with database := { session.database with failures } }
  /-- The context does not matter for it. -/
  context : ∀ session context, P session → P { session with context }

namespace SessionInvariant

variable {P : Session σ → Prop}

/-- Determining the hooks of an occasion does not break the property. -/
theorem resolved (hinv : SessionInvariant env host transaction P) {collection : Path}
    {result : Except ConfigError CacheEntry} {session after : Session σ}
    (hresolve : session.resolve env.settings collection = (result, after)) (h : P session) :
    P after := by
  have hresolved := hinv.resolve session collection h
  rwa [hresolve] at hresolved

/-- The first phase does not break the property. -/
theorem runBefore (occasion : Occasion)
    (hinv : SessionInvariant env host occasion.transaction P) (session : Session σ)
    (h : P session) : P (env.runBefore host occasion session).2 := by
  have hentered : ∀ {resolved : Session σ}, P resolved →
      P (resolved.enterRun (.running occasion.source .before) occasion.transaction) :=
    fun hresolved => hinv.context _ _ hresolved
  have hruns := env.runsBefore_runBefore host occasion session
  generalize (env.runBefore host occasion session).1 = result,
    (env.runBefore host occasion session).2 = after at hruns ⊢
  cases hruns with
  | unresolved hresolve => exact hinv.resolved hresolve h
  | unbound hresolve => exact hinv.resolved hresolve h
  | engaged hresolve => exact hinv.resolved hresolve h
  | @failed entry resolved _ _ hresolve _ hrun =>
    have hran := runUntilFailure_invariant (hinv.binding occasion rfl .before)
      entry.config.bindings _ (hentered (hinv.resolved hresolve h))
    rw [hrun] at hran
    exact hinv.context _ _ hran
  | @passed entry resolved _ hresolve _ _ hrun =>
    have hran := runUntilFailure_invariant (hinv.binding occasion rfl .before)
      entry.config.bindings _ (hentered (hinv.resolved hresolve h))
    rw [hrun] at hran
    exact hinv.context _ _ hran

/-- The second phase does not break the property. -/
theorem runAfter (occasion : Occasion)
    (hinv : SessionInvariant env host occasion.transaction P) (session : Session σ)
    (h : P session) : P (env.runAfter host occasion session) := by
  have hruns := env.runsAfter_runAfter host occasion session
  generalize env.runAfter host occasion session = after at hruns ⊢
  cases hruns with
  | unresolved hresolve =>
    exact hinv.failures _ _ (hinv.context _ _ (hinv.resolved hresolve h))
  | unbound hresolve => exact hinv.context _ _ (hinv.resolved hresolve h)
  | engaged hresolve => exact hinv.resolved hresolve h
  | @ran entry resolved hresolve =>
    have hentered : P (resolved.enterRun (.running occasion.source .after) occasion.transaction) :=
      hinv.context _ _ (hinv.resolved hresolve h)
    exact hinv.context _ _ (runAndPublish_invariant (hinv.binding occasion rfl .after)
      (fun _ _ _ => hinv.failures _ _) entry.config.bindings _ hentered)

/-- If applying a mutation to the store does not break the property either, then it holds until the
mutation is finished. -/
theorem performWith (hinv : SessionInvariant env host transaction P)
    (hstored : ∀ session store, P session →
      P { session with database := { session.database with store } })
    {mutation : Mutation} {session : Session σ}
    (hchecked : P (session.checkLocks env.settings mutation).2) :
    ∃ ran, P ran ∧ (env.performWith host transaction mutation session).2 =
      ran.finish env.settings transaction mutation
        (env.performWith host transaction mutation session).1 := by
  have hbetween : ∀ {checked told : Session σ} {result},
      session.checkLocks env.settings mutation = (.ok (), checked) →
      env.runBefore host (.of transaction mutation) checked = (result, told) → P told := by
    intro checked told result hlocks hbefore
    rw [hlocks] at hchecked
    have htold := hinv.runBefore (.of transaction mutation) checked hchecked
    rwa [hbefore] at htold
  have hperforms := env.performs_performWith host transaction mutation session
  generalize (env.performWith host transaction mutation session).1 = result,
    (env.performWith host transaction mutation session).2 = after at hperforms ⊢
  cases hperforms with
  | locked hlocks =>
    rw [hlocks] at hchecked
    exact ⟨_, hchecked, rfl⟩
  | prevented hlocks hbefore => exact ⟨_, hbetween hlocks hbefore, rfl⟩
  | rejected hlocks hbefore => exact ⟨_, hinv.context _ _ (hbetween hlocks hbefore), rfl⟩
  | @applied checked told store hlocks hbefore =>
    have happlied := hstored told store (hbetween hlocks hbefore)
    exact ⟨_, hinv.runAfter (.of transaction mutation) _ happlied, rfl⟩

end SessionInvariant

/-- A property of databases that nothing done for the hooks of a transaction can break: neither
their mutations, nor determining which hooks there are, nor publishing failures. -/
structure DatabaseInvariant (env : Environment L σ) (host : Host σ) (transaction : TransactionId)
    (P : Database → Prop) : Prop where
  /-- A mutation asked for by a hook does not break it. -/
  host : ∀ mutation session, P session.database →
    P (host transaction mutation session).2.database
  /-- Determining a configuration does not break it. -/
  resolve : ∀ database collection, P database → P (database.resolve env.settings collection).2
  /-- The feed of failures does not matter for it. -/
  failures : ∀ database failures, P database → P { database with failures }

namespace DatabaseInvariant

variable {P : Database → Prop}

/-- If the operations of the language leave the database alone, then no step of a hook can break
the property. -/
theorem hookInvariant (hinv : DatabaseInvariant env host transaction P)
    (hkeeps : env.evaluator.KeepsDatabase) :
    HookInvariant env host transaction fun session => P session.database where
  compile _ _ h := h
  handle op session h := by
    rw [hkeeps]
    exact h
  host := hinv.host

/-- If nothing breaks either of two properties, nothing breaks both together. -/
theorem and {Q : Database → Prop} (hP : DatabaseInvariant env host transaction P)
    (hQ : DatabaseInvariant env host transaction Q) :
    DatabaseInvariant env host transaction fun database => P database ∧ Q database where
  host mutation session h := ⟨hP.host mutation session h.1, hQ.host mutation session h.2⟩
  resolve database collection h :=
    ⟨hP.resolve database collection h.1, hQ.resolve database collection h.2⟩
  failures database failures h :=
    ⟨hP.failures database failures h.1, hQ.failures database failures h.2⟩

/-- If nothing that hooks ask for breaks a property of the store, then nothing done for them does
once the configuration root was seen to. -/
theorem readyWith {P : Store → Prop}
    (hhost : ∀ mutation session, session.database.ReadyWith P →
      (host transaction mutation session).2.database.ReadyWith P) :
    DatabaseInvariant env host transaction (Database.ReadyWith P) where
  host := hhost
  resolve _ collection h := h.resolve collection
  failures _ _ h := h

/-- If the operations of the language leave the database alone, then nothing done for the hooks can
break the property. -/
theorem sessionInvariant (hinv : DatabaseInvariant env host transaction P)
    (hkeeps : env.evaluator.KeepsDatabase) :
    SessionInvariant env host transaction fun session => P session.database where
  binding occasion htransaction := by
    subst htransaction
    exact (hinv.hookInvariant hkeeps).runBinding occasion
  resolve session collection := hinv.resolve session.database collection
  failures session failures := hinv.failures session.database failures
  context _ _ h := h

/-- The first phase does not break the property. -/
theorem runBefore (occasion : Occasion)
    (hinv : DatabaseInvariant env host occasion.transaction P)
    (hkeeps : env.evaluator.KeepsDatabase) (session : Session σ) (h : P session.database) :
    P (env.runBefore host occasion session).2.database :=
  (hinv.sessionInvariant hkeeps).runBefore occasion session h

/-- The second phase does not break the property. -/
theorem runAfter (occasion : Occasion)
    (hinv : DatabaseInvariant env host occasion.transaction P)
    (hkeeps : env.evaluator.KeepsDatabase) (session : Session σ) (h : P session.database) :
    P (env.runAfter host occasion session).database :=
  (hinv.sessionInvariant hkeeps).runAfter occasion session h

/-- A property holds after a mutation was performed if it holds once the locks were checked, if
nothing done for the hooks breaks it, and if the end of the mutation restores it from a property
that holds once the store has applied the mutation and that nothing done for the hooks breaks
either. -/
theorem performWith_of_checked {Q : Database → Prop}
    (hP : DatabaseInvariant env host transaction P) (hQ : DatabaseInvariant env host transaction Q)
    (hkeeps : env.evaluator.KeepsDatabase) {mutation : Mutation} {session : Session σ}
    (hchecked : ∀ result checked,
      session.checkLocks env.settings mutation = (result, checked) → P checked.database)
    (happlied : ∀ checked told store,
      env.runBefore host (.of transaction mutation) checked = (.ok (), told) → P told.database →
      told.database.store.perform transaction mutation = .ok store →
      Q { told.database with store })
    (hdropped : ∀ ran : Session σ, Q ran.database →
      P ((ran.dropLocks mutation).dropConfig env.settings transaction mutation).database) :
    P (env.performWith host transaction mutation session).2.database := by
  -- Up to the store, the property holds on every way the mutation goes.
  have htold : ∀ {checked result told}, P checked.database →
      env.runBefore host (.of transaction mutation) checked = (result, told) →
      P told.database := by
    intro checked result told hbefore hrun
    have hran := hP.runBefore (.of transaction mutation) hkeeps checked hbefore
    rwa [hrun] at hran
  have hperforms := env.performs_performWith host transaction mutation session
  generalize (env.performWith host transaction mutation session).1 = result,
    (env.performWith host transaction mutation session).2 = after at hperforms ⊢
  cases hperforms with
  | locked hcheck => exact hchecked _ _ hcheck
  | prevented hcheck hbefore => exact htold (hchecked _ _ hcheck) hbefore
  | rejected hcheck hbefore =>
    have hbetween := htold (hchecked _ _ hcheck) hbefore
    exact hbetween
  | @applied checked told store hcheck hbefore hstore =>
    have hbetween :=
      happlied checked told store hbefore (htold (hchecked _ _ hcheck) hbefore) hstore
    -- The second phase keeps `Q`, and the end of the mutation restores `P`.
    apply hdropped
    exact hQ.runAfter (.of transaction mutation) hkeeps
      { told with database := { told.database with store } } hbetween

/-- The same for a property that does not depend on the locks. -/
theorem performWith {Q : Database → Prop} (hP : DatabaseInvariant env host transaction P)
    (hQ : DatabaseInvariant env host transaction Q) (hkeeps : env.evaluator.KeepsDatabase)
    {mutation : Mutation} {session : Session σ}
    (hlocks : ∀ database locks, P database → P { database with locks })
    (happlied : ∀ checked told store,
      env.runBefore host (.of transaction mutation) checked = (.ok (), told) → P told.database →
      told.database.store.perform transaction mutation = .ok store →
      Q { told.database with store })
    (hdropped : ∀ ran : Session σ, Q ran.database →
      P ((ran.dropLocks mutation).dropConfig env.settings transaction mutation).database)
    (h : P session.database) :
    P (env.performWith host transaction mutation session).2.database := by
  refine hP.performWith_of_checked hQ hkeeps (fun result checked hcheck => ?_) happlied hdropped
  obtain ⟨locks, rfl⟩ := Session.eq_of_checkLocks hcheck
  exact hlocks _ _ h

end DatabaseInvariant

/-- What holds of the host that performs nothing, and of performing mutations if it holds of the
host of their hooks, holds of performing mutations. -/
theorem perform_induction {K : Host σ → Prop} (hidle : K idleHost)
    (hstep : ∀ host, K host → K (env.performWith host)) : K env.perform :=
  hstep _ (hstep _ hidle)

end Environment

end DocTree
