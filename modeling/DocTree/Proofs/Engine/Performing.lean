import DocTree.Engine.Perform
import DocTree.Proofs.Config.Resolving

/-!
# The ways a mutation can go

Each phase of the hooks, and performing a mutation as a whole, can end in a handful of ways. Every
later result about mutations is by cases on these ways, so that none of them has to look into the
definitions of the phases again.

## Main definitions

* `Session.SameRest`: two sessions differ in nothing but their databases.
* `Environment.RunsBefore` and `Environment.RunsAfter`: the ways in which the phases can go.
* `Environment.Performs`: the ways in which performing a mutation can go.

## Main results

* `Environment.runsBefore_runBefore`, `Environment.runsAfter_runAfter` and
  `Environment.performs_performWith`: the phases and the whole go one of these ways.
* `Session.eq_of_checkLocks` and `Session.eq_of_resolve`: checking locks and determining a
  configuration change nothing but the database.
-/

namespace DocTree

variable {L : HookLanguage} {σ : Type}

namespace Guard

/-- A guard can be engaged exactly if it has no marker. -/
theorem engage_of_idle {guard : Guard} (h : guard.marker = none) (path : Path) (phase : Phase) :
    guard.engage path phase = (true, running path phase) := by
  rw [engage, h]

/-- A guard with a marker stays as it is. -/
theorem engage_of_engaged {guard : Guard} (h : guard.marker ≠ none) (path : Path) (phase : Phase) :
    guard.engage path phase = (false, guard) := by
  unfold engage
  split
  · rfl
  next hnone => exact absurd hnone h

end Guard

/-- A context that is not suspended on a path keeps its run. -/
theorem Context.discardRun_eq_self {context : Context} {path : Path}
    (h : context.guard.isSuspendedOn path = false) : context.discardRun path = context := by
  unfold Context.discardRun Guard.discard
  rw [h]
  rfl

namespace Database

variable {database : Database}

/-- Recording leaves the store alone. -/
@[simp]
theorem store_recordChanges (transaction : TransactionId) (collections : List Path) :
    (database.recordChanges transaction collections).store = database.store := by
  unfold recordChanges
  split <;> rfl

@[simp]
theorem resolver_recordChanges (transaction : TransactionId) (collections : List Path) :
    (database.recordChanges transaction collections).resolver = database.resolver := by
  unfold recordChanges
  split <;> rfl

@[simp]
theorem failures_recordChanges (transaction : TransactionId) (collections : List Path) :
    (database.recordChanges transaction collections).failures = database.failures := by
  unfold recordChanges
  split <;> rfl

end Database

namespace Session

/-- Two sessions differ in nothing but their databases. -/
def SameRest (before after : Session σ) : Prop :=
  after.evaluation = before.evaluation ∧ after.context = before.context

/-- What stays the same in two steps stays the same. -/
theorem SameRest.trans {first second third : Session σ} (h : first.SameRest second)
    (hnext : second.SameRest third) : first.SameRest third :=
  ⟨hnext.1.trans h.1, hnext.2.trans h.2⟩

variable {settings : Settings} {session after : Session σ} {mutation : Mutation}

/-- Checking locks changes nothing but the table of locks, from which expired tokens go. -/
theorem eq_of_checkLocks {result : Except MutationError Unit}
    (h : session.checkLocks settings mutation = (result, after)) :
    ∃ locks, after = { session with database := { session.database with locks } } := by
  unfold checkLocks at h
  split at h
  · dsimp only at h
    split at h <;> exact ⟨_, (Prod.mk.inj h).2.symm⟩
  · exact ⟨session.database.locks, (Prod.mk.inj h).2.symm⟩

/-- Requests made for nobody are not subject to locks. -/
theorem checkLocks_of_internal (h : session.context.principal = none) :
    session.checkLocks settings mutation = (.ok (), session) := by
  unfold checkLocks
  rw [h]
  split
  next hprincipal => cases hprincipal
  · rfl

/-- Checking locks changes nothing but the database. -/
theorem sameRest_of_checkLocks {result : Except MutationError Unit}
    (h : session.checkLocks settings mutation = (result, after)) : session.SameRest after := by
  obtain ⟨locks, rfl⟩ := eq_of_checkLocks h
  exact ⟨rfl, rfl⟩

/-- Determining a configuration changes nothing but the database. -/
theorem eq_of_resolve {collection : Path} {result : Except ConfigError CacheEntry}
    (h : session.resolve settings collection = (result, after)) :
    (session.database.resolve settings collection).1 = result ∧
      after = { session with database := (session.database.resolve settings collection).2 } :=
  ⟨congrArg Prod.fst h, (congrArg Prod.snd h).symm⟩

/-- Determining a configuration changes nothing but the database. -/
theorem sameRest_of_resolve {collection : Path} {result : Except ConfigError CacheEntry}
    (h : session.resolve settings collection = (result, after)) : session.SameRest after := by
  obtain ⟨-, rfl⟩ := eq_of_resolve h
  exact ⟨rfl, rfl⟩

/-- A session whose context is not suspended on a path keeps its run. -/
theorem discardRun_eq_self {path : Path}
    (h : session.context.guard.isSuspendedOn path = false) : session.discardRun path = session := by
  rw [discardRun, Context.discardRun_eq_self h]

/-- Applying a mutation to the store succeeds exactly if the store allows it. -/
theorem applyToStore_of_ok {transaction : TransactionId} {store : Store}
    (h : session.database.store.perform transaction mutation = .ok store) :
    session.applyToStore transaction mutation =
      (.ok (), { session with database := { session.database with store } }) := by
  rw [applyToStore, h]

theorem applyToStore_of_error {transaction : TransactionId} {error : StoreError}
    (h : session.database.store.perform transaction mutation = .error error) :
    session.applyToStore transaction mutation = (.error error, session) := by
  rw [applyToStore, h]

/-- Publishes what a hook that ran after the change results in, if it has failed. -/
def report (session : Session σ) (occasion : Occasion) (declaredAt : Path) :
    Except HookError Unit → Session σ
  | .error e => session.publish occasion declaredAt e
  | .ok () => session

variable {transaction : TransactionId}

/-- The end of a mutation leaves the store alone. -/
@[simp]
theorem store_dropConfig :
    ((session.dropLocks mutation).dropConfig settings transaction mutation).database.store =
      session.database.store := by
  unfold dropConfig
  dsimp only
  rw [Database.store_recordChanges]
  rfl

@[simp]
theorem rootReady_dropConfig :
    ((session.dropLocks mutation).dropConfig settings transaction
      mutation).database.resolver.rootReady = session.database.resolver.rootReady := by
  unfold dropConfig
  dsimp only
  rw [Database.resolver_recordChanges]
  exact Resolver.rootReady_invalidateAll ..

theorem atRest_dropConfig (h : session.database.resolver.cache.AtRest) :
    ((session.dropLocks mutation).dropConfig settings transaction
      mutation).database.resolver.cache.AtRest := by
  unfold dropConfig
  dsimp only
  rw [Database.resolver_recordChanges]
  exact Resolver.atRest_invalidateAll h _

@[simp]
theorem failures_dropConfig :
    ((session.dropLocks mutation).dropConfig settings transaction mutation).database.failures =
      session.database.failures := by
  unfold dropConfig
  dsimp only
  rw [Database.failures_recordChanges]
  rfl

end Session

namespace Environment

/-- The ways in which the hooks of the first phase can go. -/
inductive RunsBefore (env : Environment L σ) (host : Host σ) (occasion : Occasion)
    (session : Session σ) : Except HookError Unit → Session σ → Prop where
  /-- It cannot be determined which hooks there are. -/
  | unresolved {error : ConfigError} {resolved : Session σ}
      (hresolve : session.resolve env.settings occasion.owner = (.error error, resolved)) :
      RunsBefore env host occasion session (.error (.config error)) resolved
  /-- There are no hooks. -/
  | unbound {entry : CacheEntry} {resolved : Session σ}
      (hresolve : session.resolve env.settings occasion.owner = (.ok entry, resolved))
      (hbindings : entry.config.bindings = []) :
      RunsBefore env host occasion session (.ok ()) resolved
  /-- The context is engaged already. -/
  | engaged {entry : CacheEntry} {resolved : Session σ}
      (hresolve : session.resolve env.settings occasion.owner = (.ok entry, resolved))
      (hengaged : session.context.guard.marker ≠ none) :
      RunsBefore env host occasion session (.ok ()) resolved
  /-- A hook fails. -/
  | failed {entry : CacheEntry} {resolved ran : Session σ} {error : HookError}
      (hresolve : session.resolve env.settings occasion.owner = (.ok entry, resolved))
      (hidle : session.context.guard.marker = none)
      (hrun : env.runUntilFailure host occasion entry.config.bindings
        (resolved.enterRun (.running occasion.source .before) occasion.transaction) =
          (.error error, ran)) :
      RunsBefore env host occasion session (.error error) ran.endRun
  /-- All hooks succeed, and the run is suspended. -/
  | passed {entry : CacheEntry} {resolved ran : Session σ}
      (hresolve : session.resolve env.settings occasion.owner = (.ok entry, resolved))
      (hbindings : entry.config.bindings ≠ [])
      (hidle : session.context.guard.marker = none)
      (hrun : env.runUntilFailure host occasion entry.config.bindings
        (resolved.enterRun (.running occasion.source .before) occasion.transaction) =
          (.ok (), ran)) :
      RunsBefore env host occasion session (.ok ()) ran.suspendRun

/-- The hooks of the first phase go one of these ways. -/
theorem runsBefore_runBefore (env : Environment L σ) (host : Host σ) (occasion : Occasion)
    (session : Session σ) :
    env.RunsBefore host occasion session (env.runBefore host occasion session).1
      (env.runBefore host occasion session).2 := by
  unfold runBefore
  split
  next hresolve => exact .unresolved hresolve
  next entry resolved hresolve =>
    have hcontext := (Session.sameRest_of_resolve hresolve).2
    split
    next hempty => exact .unbound hresolve (List.isEmpty_iff.1 hempty)
    next hbindings =>
      -- Without a marker, the guard can be engaged.
      rw [List.isEmpty_iff] at hbindings
      by_cases hidle : session.context.guard.marker = none
      · rw [hcontext, Guard.engage_of_idle hidle]
        dsimp only
        split
        next hrun => exact .failed hresolve hidle hrun
        next hrun => exact .passed hresolve hbindings hidle hrun
      · rw [hcontext, Guard.engage_of_engaged hidle]
        exact .engaged hresolve hidle

/-- There is only one way in which the hooks of the first phase go. -/
theorem runBefore_eq_of_runsBefore {env : Environment L σ} {host : Host σ} {occasion : Occasion}
    {session after : Session σ} {result : Except HookError Unit}
    (h : env.RunsBefore host occasion session result after) :
    env.runBefore host occasion session = (result, after) := by
  unfold runBefore
  cases h with
  | unresolved hresolve => rw [hresolve]
  | unbound hresolve hbindings =>
    rw [hresolve]
    exact if_pos (List.isEmpty_iff.2 hbindings)
  | engaged hresolve hengaged =>
    have hcontext := (Session.sameRest_of_resolve hresolve).2
    rw [hresolve]
    dsimp only
    rw [hcontext, Guard.engage_of_engaged hengaged]
    split <;> rfl
  | @failed entry _ _ _ hresolve hidle hrun =>
    have hcontext := (Session.sameRest_of_resolve hresolve).2
    -- Without bindings there would be no failure.
    have hbindings : ¬entry.config.bindings.isEmpty := by
      intro hempty
      rw [List.isEmpty_iff.1 hempty] at hrun
      cases hrun
    rw [hresolve]
    dsimp only
    rw [hcontext, if_neg hbindings, Guard.engage_of_idle hidle]
    dsimp only
    rw [hrun]
  | @passed entry _ _ hresolve hbindings hidle hrun =>
    have hcontext := (Session.sameRest_of_resolve hresolve).2
    have hnonempty : ¬entry.config.bindings.isEmpty :=
      fun hempty => hbindings (List.isEmpty_iff.1 hempty)
    rw [hresolve]
    dsimp only
    rw [hcontext, if_neg hnonempty, Guard.engage_of_idle hidle]
    dsimp only
    rw [hrun]

/-- After each hook that runs after the change, its failure is published. -/
theorem runAndPublish_cons (env : Environment L σ) (host : Host σ) (occasion : Occasion)
    (binding : Binding) (rest : List Binding) (session : Session σ) :
    env.runAndPublish host occasion (binding :: rest) session =
      env.runAndPublish host occasion rest
        ((env.runBinding host occasion .after binding session).2.report occasion
          binding.declaredAt (env.runBinding host occasion .after binding session).1) := by
  rw [runAndPublish]
  generalize env.runBinding host occasion .after binding session = outcome
  obtain ⟨_ | _, _⟩ := outcome <;> rfl

/-- The ways in which the hooks of the second phase can go. -/
inductive RunsAfter (env : Environment L σ) (host : Host σ) (occasion : Occasion)
    (session : Session σ) : Session σ → Prop where
  /-- It cannot be determined which hooks there are. -/
  | unresolved {error : ConfigError} {resolved : Session σ}
      (hresolve : session.resolve env.settings occasion.owner = (.error error, resolved)) :
      RunsAfter env host occasion session
        ((resolved.discardRun occasion.source).publish occasion occasion.owner (.config error))
  /-- There are no hooks. -/
  | unbound {entry : CacheEntry} {resolved : Session σ}
      (hresolve : session.resolve env.settings occasion.owner = (.ok entry, resolved))
      (hbindings : entry.config.bindings = []) :
      RunsAfter env host occasion session (resolved.discardRun occasion.source)
  /-- The context is engaged, and not by the first phase of the same occasion. -/
  | engaged {entry : CacheEntry} {resolved : Session σ}
      (hresolve : session.resolve env.settings occasion.owner = (.ok entry, resolved))
      (hengaged : session.context.guard.marker ≠ none)
      (hother : session.context.guard.isSuspendedOn occasion.source = false) :
      RunsAfter env host occasion session resolved
  /-- The hooks run. -/
  | ran {entry : CacheEntry} {resolved : Session σ}
      (hresolve : session.resolve env.settings occasion.owner = (.ok entry, resolved))
      (hbindings : entry.config.bindings ≠ [])
      (hfree : session.context.guard.marker = none ∨
        session.context.guard.isSuspendedOn occasion.source = true) :
      RunsAfter env host occasion session
        (env.runAndPublish host occasion entry.config.bindings
          (resolved.enterRun (.running occasion.source .after) occasion.transaction)).endRun

/-- The hooks of the second phase go one of these ways. -/
theorem runsAfter_runAfter (env : Environment L σ) (host : Host σ) (occasion : Occasion)
    (session : Session σ) :
    env.RunsAfter host occasion session (env.runAfter host occasion session) := by
  unfold runAfter
  split
  next hresolve => exact .unresolved hresolve
  next entry resolved hresolve =>
    have hcontext := (Session.sameRest_of_resolve hresolve).2
    split
    next hempty => exact .unbound hresolve (List.isEmpty_iff.1 hempty)
    next hbindings =>
      rw [List.isEmpty_iff] at hbindings
      rw [hcontext]
      unfold resumeOrEngage Guard.resume
      -- The run of the first phase is resumed, or a new one starts on an idle context.
      by_cases hsuspended : session.context.guard.isSuspendedOn occasion.source
      · rw [if_pos hsuspended]
        exact .ran hresolve hbindings (.inr hsuspended)
      · rw [if_neg hsuspended]
        by_cases hidle : session.context.guard.marker = none
        · simp only [Guard.engage_of_idle hidle]
          exact .ran hresolve hbindings (.inl hidle)
        · simp only [Guard.engage_of_engaged hidle]
          exact .engaged hresolve hidle (Bool.eq_false_iff.2 hsuspended)

/-- There is only one way in which the hooks of the second phase go. -/
theorem runAfter_eq_of_runsAfter {env : Environment L σ} {host : Host σ} {occasion : Occasion}
    {session after : Session σ} (h : env.RunsAfter host occasion session after) :
    env.runAfter host occasion session = after := by
  unfold runAfter
  cases h with
  | unresolved hresolve => rw [hresolve]
  | unbound hresolve hbindings =>
    rw [hresolve]
    exact if_pos (List.isEmpty_iff.2 hbindings)
  | @engaged entry _ hresolve hengaged hother =>
    have hcontext := (Session.sameRest_of_resolve hresolve).2
    -- Without bindings the run would be given up, but there is none to give up here.
    have hnotSuspended : ¬session.context.guard.isSuspendedOn occasion.source := by
      rw [hother]
      exact Bool.false_ne_true
    rw [hresolve]
    dsimp only
    rw [hcontext, resumeOrEngage, Guard.resume, if_neg hnotSuspended]
    dsimp only
    rw [Guard.engage_of_engaged hengaged]
    split
    · exact Session.discardRun_eq_self (hcontext ▸ hother)
    · rfl
  | @ran entry _ hresolve hbindings hfree =>
    have hcontext := (Session.sameRest_of_resolve hresolve).2
    have hnonempty : ¬entry.config.bindings.isEmpty :=
      fun hempty => hbindings (List.isEmpty_iff.1 hempty)
    rw [hresolve]
    dsimp only
    rw [hcontext, if_neg hnonempty, resumeOrEngage, Guard.resume]
    by_cases hsuspended : session.context.guard.isSuspendedOn occasion.source
    · rw [if_pos hsuspended]
    · rw [if_neg hsuspended]
      dsimp only
      rw [Guard.engage_of_idle (hfree.resolve_right hsuspended)]

/-- The ways in which performing a mutation can go. -/
inductive Performs (env : Environment L σ) (host : Host σ) (transaction : TransactionId)
    (mutation : Mutation) (session : Session σ) :
    Except MutationError Unit → Session σ → Prop where
  /-- A lock of somebody else stands in the way. -/
  | locked {error : MutationError} {checked : Session σ}
      (hlocks : session.checkLocks env.settings mutation = (.error error, checked)) :
      Performs env host transaction mutation session (.error error) checked
  /-- The hooks of the first phase prevent the mutation, or cannot be determined. -/
  | prevented {error : HookError} {checked after : Session σ}
      (hlocks : session.checkLocks env.settings mutation = (.ok (), checked))
      (hbefore : env.runBefore host (.of transaction mutation) checked = (.error error, after)) :
      Performs env host transaction mutation session (.error (.trigger error)) after
  /-- The store refuses the mutation. -/
  | rejected {error : StoreError} {checked told : Session σ}
      (hlocks : session.checkLocks env.settings mutation = (.ok (), checked))
      (hbefore : env.runBefore host (.of transaction mutation) checked = (.ok (), told))
      (hstore : told.database.store.perform transaction mutation = .error error) :
      Performs env host transaction mutation session (.error (.storage error))
        (told.discardRun mutation.source)
  /-- The mutation is applied, and the hooks of the second phase are told. -/
  | applied {checked told : Session σ} {store : Store}
      (hlocks : session.checkLocks env.settings mutation = (.ok (), checked))
      (hbefore : env.runBefore host (.of transaction mutation) checked = (.ok (), told))
      (hstore : told.database.store.perform transaction mutation = .ok store) :
      Performs env host transaction mutation session (.ok ())
        (((env.runAfter host (.of transaction mutation)
          { told with database := { told.database with store } }).dropLocks mutation).dropConfig
            env.settings transaction mutation)

/-- Performing a mutation goes one of these ways. -/
theorem performs_performWith (env : Environment L σ) (host : Host σ) (transaction : TransactionId)
    (mutation : Mutation) (session : Session σ) :
    env.Performs host transaction mutation session
      (env.performWith host transaction mutation session).1
      (env.performWith host transaction mutation session).2 := by
  unfold performWith
  dsimp only
  split
  next hlocks => exact .locked hlocks
  next hlocks =>
    split
    next hbefore => exact .prevented hlocks hbefore
    next told hbefore =>
      cases hstore : told.database.store.perform transaction mutation with
      | error e =>
        rw [Session.applyToStore_of_error hstore]
        exact .rejected hlocks hbefore hstore
      | ok store =>
        rw [Session.applyToStore_of_ok hstore]
        exact .applied hlocks hbefore hstore

/-- There is only one way in which performing a mutation goes. -/
theorem performWith_eq_of_performs {env : Environment L σ} {host : Host σ}
    {transaction : TransactionId} {mutation : Mutation} {session after : Session σ}
    {result : Except MutationError Unit}
    (h : env.Performs host transaction mutation session result after) :
    env.performWith host transaction mutation session = (result, after) := by
  unfold performWith
  dsimp only
  cases h with
  | locked hlocks => rw [hlocks]
  | prevented hlocks hbefore =>
    rw [hlocks]
    dsimp only
    rw [hbefore]
  | rejected hlocks hbefore hstore =>
    rw [hlocks]
    dsimp only
    rw [hbefore]
    dsimp only
    rw [Session.applyToStore_of_error hstore]
  | applied hlocks hbefore hstore =>
    rw [hlocks]
    dsimp only
    rw [hbefore]
    dsimp only
    rw [Session.applyToStore_of_ok hstore]

end Environment

end DocTree
