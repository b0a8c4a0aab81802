import DocTree.Proofs.Engine.Performing

/-!
# Mutations asked for by hooks

While a hook runs, its context holds a running marker. A mutation performed on such a context fires
no hooks, so it comes down to three steps: the locks are checked, the configuration of the governing
collection is determined, and the store applies the mutation. Whatever would perform the mutations
of further hooks does not matter, so performing a mutation is its own host.

## Main definitions

* `Guard.IsRunning`: the guard holds a marker that is not suspended.
* `Session.performPlain`: performs a mutation in the three steps, which go one of the ways listed by
  `Session.PerformsPlain`.

## Main results

* `Environment.performWith_eq_of_running`: on a running context, performing a mutation comes down to
  the three steps.
* `Environment.fst_performWith_of_running`, `Environment.store_performWith_of_running` and
  `Environment.sameRest_performWith_of_running`: it has the result and the effect on the store of
  the three steps, and leaves the evaluator and the context alone.
-/

namespace DocTree

variable {L : HookLanguage} {σ : Type}

/-! ### Running contexts -/

/-- The guard holds a marker that is not suspended. -/
def Guard.IsRunning (guard : Guard) : Prop :=
  ∃ path phase, guard = .running path phase

namespace Guard.IsRunning

variable {guard : Guard}

theorem marker_ne_none (h : guard.IsRunning) : guard.marker ≠ none := by
  obtain ⟨path, phase, rfl⟩ := h
  exact Option.some_ne_none _

theorem isSuspendedOn_eq_false (h : guard.IsRunning) (path : Path) :
    guard.isSuspendedOn path = false := by
  obtain ⟨_, _, rfl⟩ := h
  rfl

end Guard.IsRunning

/-! ### The three steps -/

namespace Session

/-- Performs a mutation without hooks: checks the locks, determines the configuration of the
governing collection, and applies the mutation to the store. -/
def performPlain (session : Session σ) (settings : Settings) (transaction : TransactionId)
    (mutation : Mutation) : Except MutationError Unit × Session σ :=
  match session.checkLocks settings mutation with
  | (.error e, session) => (.error e, session)
  | (.ok (), session) =>
    match session.resolve settings mutation.source.governingCollection with
    | (.error e, session) => (.error (.trigger (.config e)), session)
    | (.ok _, session) =>
      match session.applyToStore transaction mutation with
      | (.error e, session) => (.error (.storage e), session)
      | (.ok (), session) => (.ok (), session)

/-- What is left to do once the three steps have succeeded: the failure to determine which hooks run
after the change is published, and locks and configuration are dropped. -/
def settlePlain (session : Session σ) (settings : Settings) (transaction : TransactionId)
    (mutation : Mutation) : Session σ :=
  let occasion := Occasion.of transaction mutation
  let session :=
    match session.resolve settings occasion.owner with
    | (.error e, session) => session.publish occasion occasion.owner (.config e)
    | (.ok _, session) => session
  (session.dropLocks mutation).dropConfig settings transaction mutation

variable {settings : Settings} {transaction : TransactionId} {mutation : Mutation}
  {session after : Session σ}

/-- The ways in which the three steps can go. -/
inductive PerformsPlain (session : Session σ) (settings : Settings) (transaction : TransactionId)
    (mutation : Mutation) : Except MutationError Unit → Session σ → Prop where
  /-- A lock of somebody else stands in the way. -/
  | locked {error : MutationError} {checked : Session σ}
      (hlocks : session.checkLocks settings mutation = (.error error, checked)) :
      PerformsPlain session settings transaction mutation (.error error) checked
  /-- The configuration cannot be determined. -/
  | unresolved {error : ConfigError} {checked resolved : Session σ}
      (hlocks : session.checkLocks settings mutation = (.ok (), checked))
      (hresolve : checked.resolve settings mutation.source.governingCollection =
        (.error error, resolved)) :
      PerformsPlain session settings transaction mutation (.error (.trigger (.config error)))
        resolved
  /-- The store refuses the mutation. -/
  | rejected {error : StoreError} {entry : CacheEntry} {checked resolved : Session σ}
      (hlocks : session.checkLocks settings mutation = (.ok (), checked))
      (hresolve : checked.resolve settings mutation.source.governingCollection =
        (.ok entry, resolved))
      (hstore : resolved.database.store.perform transaction mutation = .error error) :
      PerformsPlain session settings transaction mutation (.error (.storage error)) resolved
  /-- The mutation is applied. -/
  | applied {entry : CacheEntry} {checked resolved : Session σ} {store : Store}
      (hlocks : session.checkLocks settings mutation = (.ok (), checked))
      (hresolve : checked.resolve settings mutation.source.governingCollection =
        (.ok entry, resolved))
      (hstore : resolved.database.store.perform transaction mutation = .ok store) :
      PerformsPlain session settings transaction mutation (.ok ())
        { resolved with database := { resolved.database with store } }

/-- The three steps go one of these ways. -/
theorem performsPlain_performPlain (session : Session σ) (settings : Settings)
    (transaction : TransactionId) (mutation : Mutation) :
    session.PerformsPlain settings transaction mutation
      (session.performPlain settings transaction mutation).1
      (session.performPlain settings transaction mutation).2 := by
  unfold performPlain
  split
  next hlocks => exact .locked hlocks
  next hlocks =>
    split
    next hresolve => exact .unresolved hlocks hresolve
    next resolved hresolve =>
      cases hstore : resolved.database.store.perform transaction mutation with
      | error e =>
        rw [applyToStore_of_error hstore]
        exact .rejected hlocks hresolve hstore
      | ok store =>
        rw [applyToStore_of_ok hstore]
        exact .applied hlocks hresolve hstore

/-- There is only one way in which the three steps go. -/
theorem performPlain_eq_of_performsPlain {result : Except MutationError Unit}
    (h : session.PerformsPlain settings transaction mutation result after) :
    session.performPlain settings transaction mutation = (result, after) := by
  unfold performPlain
  cases h with
  | locked hlocks => rw [hlocks]
  | unresolved hlocks hresolve =>
    rw [hlocks]
    dsimp only
    rw [hresolve]
  | rejected hlocks hresolve hstore =>
    rw [hlocks]
    dsimp only
    rw [hresolve]
    dsimp only
    rw [applyToStore_of_error hstore]
  | applied hlocks hresolve hstore =>
    rw [hlocks]
    dsimp only
    rw [hresolve]
    dsimp only
    rw [applyToStore_of_ok hstore]

/-- The three steps change nothing but the database. -/
theorem PerformsPlain.sameRest {result : Except MutationError Unit}
    (h : session.PerformsPlain settings transaction mutation result after) :
    session.SameRest after := by
  cases h with
  | locked hlocks => exact sameRest_of_checkLocks hlocks
  | unresolved hlocks hresolve =>
    exact (sameRest_of_checkLocks hlocks).trans (sameRest_of_resolve hresolve)
  | rejected hlocks hresolve =>
    exact (sameRest_of_checkLocks hlocks).trans (sameRest_of_resolve hresolve)
  | applied hlocks hresolve =>
    have hresolved := (sameRest_of_checkLocks hlocks).trans (sameRest_of_resolve hresolve)
    exact hresolved

/-- If the three steps succeed, the configuration root was seen to. -/
theorem PerformsPlain.rootReady
    (h : session.PerformsPlain settings transaction mutation (.ok ()) after) :
    after.database.resolver.rootReady = true := by
  cases h with
  | applied _ hresolve =>
    obtain ⟨hentry, rfl⟩ := eq_of_resolve hresolve
    exact Resolver.rootReady_of_resolve_ok hentry

/-- What is left to do after the three steps changes nothing but the database. -/
theorem sameRest_settlePlain :
    session.SameRest (session.settlePlain settings transaction mutation) := by
  unfold settlePlain
  dsimp only
  split
  next hresolve =>
    have hresolved := sameRest_of_resolve hresolve
    exact hresolved
  next hresolve =>
    have hresolved := sameRest_of_resolve hresolve
    exact hresolved

/-- What is left to do after the three steps leaves the store alone. -/
theorem store_settlePlain (hready : session.database.resolver.rootReady = true) :
    (session.settlePlain settings transaction mutation).database.store =
      session.database.store := by
  unfold settlePlain
  dsimp only
  rw [store_dropConfig]
  split
  next hresolve =>
    obtain ⟨-, rfl⟩ := eq_of_resolve hresolve
    exact Resolver.store_resolve_of_ready hready
  next hresolve =>
    obtain ⟨-, rfl⟩ := eq_of_resolve hresolve
    exact Resolver.store_resolve_of_ready hready

end Session

namespace Environment

variable {env : Environment L σ} {host : Host σ} {occasion : Occasion} {session : Session σ}

/-- On a running context, the first phase only determines which hooks there are. -/
theorem runBefore_of_running (h : session.context.guard.IsRunning) :
    env.runBefore host occasion session =
      match session.resolve env.settings occasion.owner with
      | (.error e, session) => (.error (.config e), session)
      | (.ok _, session) => (.ok (), session) := by
  have hruns := env.runsBefore_runBefore host occasion session
  rw [← Prod.eta (env.runBefore host occasion session)]
  generalize (env.runBefore host occasion session).1 = result,
    (env.runBefore host occasion session).2 = after at hruns ⊢
  cases hruns with
  | unresolved hresolve => rw [hresolve]
  | unbound hresolve => rw [hresolve]
  | engaged hresolve => rw [hresolve]
  | failed _ hidle => exact absurd hidle h.marker_ne_none
  | passed _ _ hidle => exact absurd hidle h.marker_ne_none

/-- On a running context, the second phase only determines which hooks there are, and publishes the
failure to do so. -/
theorem runAfter_of_running (h : session.context.guard.IsRunning) :
    env.runAfter host occasion session =
      match session.resolve env.settings occasion.owner with
      | (.error e, session) => session.publish occasion occasion.owner (.config e)
      | (.ok _, session) => session := by
  -- A running marker is not suspended, so there is nothing to give up.
  have hcontext : ∀ {result resolved},
      session.resolve env.settings occasion.owner = (result, resolved) →
      resolved.discardRun occasion.source = resolved := by
    intro result resolved hresolve
    obtain ⟨-, rfl⟩ := Session.eq_of_resolve hresolve
    exact Session.discardRun_eq_self (h.isSuspendedOn_eq_false _)
  have hruns := env.runsAfter_runAfter host occasion session
  generalize env.runAfter host occasion session = after at hruns ⊢
  cases hruns with
  | unresolved hresolve => rw [hresolve, hcontext hresolve]
  | unbound hresolve => rw [hresolve, hcontext hresolve]
  | engaged hresolve => rw [hresolve]
  | ran _ _ hfree =>
    rcases hfree with hidle | hsuspended
    · exact absurd hidle h.marker_ne_none
    · rw [h.isSuspendedOn_eq_false] at hsuspended
      cases hsuspended

variable {transaction : TransactionId} {mutation : Mutation}

/-- On a running context, performing a mutation comes down to the three steps and to what is left
to do afterwards. -/
theorem performWith_eq_of_running (h : session.context.guard.IsRunning) :
    env.performWith host transaction mutation session =
      match session.performPlain env.settings transaction mutation with
      | (.error e, session) => (.error e, session)
      | (.ok (), session) => (.ok (), session.settlePlain env.settings transaction mutation) := by
  unfold performWith Session.performPlain
  dsimp only
  generalize hcheck : session.checkLocks env.settings mutation = outcome
  obtain ⟨result, checked⟩ := outcome
  cases result with
  | error e => rfl
  | ok _ =>
    have hchecked := (Session.sameRest_of_checkLocks hcheck).2
    dsimp only
    -- Both sides now check the same locks and determine the same configuration.
    rw [runBefore_of_running (hchecked ▸ h),
      show (Occasion.of transaction mutation).owner = mutation.source.governingCollection from rfl]
    generalize hresolve : checked.resolve env.settings _ = outcome
    obtain ⟨result, resolved⟩ := outcome
    cases result with
    | error e => rfl
    | ok entry =>
      have hrunning : resolved.context.guard.IsRunning := by
        rw [(Session.sameRest_of_resolve hresolve).2, hchecked]
        exact h
      dsimp only
      cases hstore : resolved.database.store.perform transaction mutation with
      | error e =>
        rw [Session.applyToStore_of_error hstore]
        dsimp only
        rw [Session.discardRun_eq_self (hrunning.isSuspendedOn_eq_false _)]
      | ok store =>
        rw [Session.applyToStore_of_ok hstore]
        have hafter : env.runAfter host (.of transaction mutation)
            { resolved with database := { resolved.database with store } } = _ :=
          runAfter_of_running hrunning
        dsimp only
        rw [hafter]
        rfl

/-- On a running context, performing a mutation has the result of the three steps. -/
theorem fst_performWith_of_running (env : Environment L σ) (host : Host σ)
    (transaction : TransactionId) (mutation : Mutation) (session : Session σ)
    (h : session.context.guard.IsRunning) :
    (env.performWith host transaction mutation session).1 =
      (session.performPlain env.settings transaction mutation).1 := by
  rw [performWith_eq_of_running h]
  generalize session.performPlain env.settings transaction mutation = outcome
  obtain ⟨_ | _, _⟩ := outcome <;> rfl

/-- On a running context, performing a mutation has the effect of the three steps on the store. -/
theorem store_performWith_of_running (env : Environment L σ) (host : Host σ)
    (transaction : TransactionId) (mutation : Mutation) (session : Session σ)
    (h : session.context.guard.IsRunning) :
    (env.performWith host transaction mutation session).2.database.store =
      (session.performPlain env.settings transaction mutation).2.database.store := by
  have hplain := session.performsPlain_performPlain env.settings transaction mutation
  rw [performWith_eq_of_running h]
  generalize session.performPlain env.settings transaction mutation = outcome at hplain
  obtain ⟨result, after⟩ := outcome
  cases result with
  | error e => rfl
  | ok _ => exact Session.store_settlePlain hplain.rootReady

/-- On a running context, performing a mutation leaves the evaluator and the context alone. -/
theorem sameRest_performWith_of_running (env : Environment L σ) (host : Host σ)
    (transaction : TransactionId) (mutation : Mutation) (session : Session σ)
    (h : session.context.guard.IsRunning) :
    session.SameRest (env.performWith host transaction mutation session).2 := by
  have hplain := session.performsPlain_performPlain env.settings transaction mutation
  rw [performWith_eq_of_running h]
  generalize session.performPlain env.settings transaction mutation = outcome at hplain
  obtain ⟨result, after⟩ := outcome
  cases result with
  | error e => exact hplain.sameRest
  | ok _ => exact hplain.sameRest.trans Session.sameRest_settlePlain

/-- On a running context, it does not matter who performs the mutations of hooks. -/
theorem performWith_congr_of_running (other : Host σ) (h : session.context.guard.IsRunning) :
    env.performWith host transaction mutation session =
      env.performWith other transaction mutation session := by
  rw [performWith_eq_of_running h, performWith_eq_of_running h]

end Environment

end DocTree
