import DocTree.Proofs.Engine.Contexts

/-!
# Sessions that only the feed of failures tells apart

Nothing that is done for a mutation looks at the feed of failures. Two sessions that differ in
nothing else therefore take every step in the same way: the same locks stand in the way, the same
configuration is in effect, and the mutations that hooks ask for have the same results. What a hook
leaves behind is then determined by the mutations that it asks for.

## Main definitions

* `Session.Alike`: two sessions differ in nothing but their feeds of failures and the states of
  their evaluators.
* `Script.asked`: the mutations that a script asks for.

## Main results

* `Session.Alike.checkLocks`, `Session.Alike.resolve`, `Session.Alike.report` and
  `Session.Alike.drop`: the steps of a mutation leave alike sessions alike.
* `Session.Alike.performNested`: so do the mutations that hooks ask for, with the same results.
* `Script.alike_run`: what a script leaves behind is what the mutations it asks for lead to.
-/

namespace DocTree

variable {L L' : HookLanguage} {α σ τ : Type} {R : σ → τ → Prop}

/-! ### Alike sessions -/

/-- Two sessions differ in nothing but their feeds of failures and the states of their evaluators,
and these states are related. -/
structure Session.Alike (R : σ → τ → Prop) (session : Session σ) (other : Session τ) : Prop where
  /-- The databases differ in nothing but the feeds of failures. -/
  database : other.database = { session.database with failures := other.database.failures }
  /-- The states of the evaluators are related. -/
  evaluation : R session.evaluation other.evaluation
  /-- The contexts are the same. -/
  context : other.context = session.context

/-- What is published about hooks does not concern the context. -/
theorem Session.context_report (session : Session σ) (occasion : Occasion) (declaredAt : Path)
    (result : Except HookError Unit) :
    (session.report occasion declaredAt result).context = session.context := by
  cases result <;> rfl

namespace Session.Alike

variable {session after : Session σ} {other : Session τ} {settings : Settings}
  {transaction : TransactionId} {mutation : Mutation} {occasion : Occasion}

/-- What an alike session consists of. -/
theorem exists_eq (h : session.Alike R other) :
    ∃ failures evaluation, R session.evaluation evaluation ∧
      other = ⟨{ session.database with failures }, evaluation, session.context⟩ := by
  obtain ⟨database, evaluation, context⟩ := other
  obtain ⟨hdatabase, hevaluation, rfl⟩ := h
  exact ⟨database.failures, evaluation, hevaluation,
    congrArg (Session.mk · evaluation session.context) hdatabase⟩

theorem store_eq (h : session.Alike R other) :
    other.database.store = session.database.store := by
  rw [h.database]

/-- A relation may be replaced by a weaker one. -/
theorem mono {S : σ → τ → Prop} (h : session.Alike R other) (hRS : ∀ s t, R s t → S s t) :
    session.Alike S other :=
  ⟨h.database, hRS _ _ h.evaluation, h.context⟩

/-- Every session is like itself. -/
theorem refl (session : Session σ) : session.Alike (fun _ _ => True) session :=
  ⟨rfl, trivial, rfl⟩

/-- Two sessions that are like a third one are alike. -/
theorem of_common {υ : Type} {third : Session υ} (h : session.Alike (fun _ _ => True) third)
    (h' : other.Alike (fun _ _ => True) third) (hR : R session.evaluation other.evaluation) :
    session.Alike R other where
  database := by
    have hthird := h.database.symm.trans h'.database
    -- The third database is both of the others up to its feed.
    have hfields := congrArg (fun database : Database =>
      { database with failures := other.database.failures }) hthird
    exact hfields.symm
  evaluation := hR
  context := h'.context.symm.trans h.context

/-- The same locks stand in the way. -/
theorem checkLocks (h : session.Alike R other) {result : Except MutationError Unit}
    (hcheck : session.checkLocks settings mutation = (result, after)) :
    ∃ after', other.checkLocks settings mutation = (result, after') ∧ after.Alike R after' := by
  obtain ⟨failures, evaluation, hR, rfl⟩ := h.exists_eq
  unfold Session.checkLocks at hcheck ⊢
  dsimp only [Database.now] at hcheck ⊢
  -- Both sessions have the same locks, so both are split in the same way.
  split at hcheck
  · split at hcheck
    · obtain ⟨rfl, rfl⟩ := Prod.mk.inj hcheck
      exact ⟨_, rfl, rfl, hR, rfl⟩
    · obtain ⟨rfl, rfl⟩ := Prod.mk.inj hcheck
      exact ⟨_, rfl, rfl, hR, rfl⟩
  · obtain ⟨rfl, rfl⟩ := Prod.mk.inj hcheck
    exact ⟨_, rfl, rfl, hR, rfl⟩

/-- The same configuration is in effect. -/
theorem resolve (h : session.Alike R other) {collection : Path}
    {result : Except ConfigError CacheEntry}
    (hresolve : session.resolve settings collection = (result, after)) :
    ∃ after', other.resolve settings collection = (result, after') ∧ after.Alike R after' := by
  obtain ⟨failures, evaluation, hR, rfl⟩ := h.exists_eq
  obtain ⟨rfl, rfl⟩ := Session.eq_of_resolve hresolve
  exact ⟨_, rfl, rfl, hR, rfl⟩

/-- Sessions stay alike if their stores are replaced by the same one. -/
theorem withStore (h : session.Alike R other) (store : Store) :
    ({ session with database := { session.database with store } } : Session σ).Alike R
      { other with database := { other.database with store } } := by
  obtain ⟨failures, evaluation, hR, rfl⟩ := h.exists_eq
  exact ⟨rfl, hR, rfl⟩

/-- Sessions stay alike if their contexts are changed in the same way. -/
theorem mapContext (h : session.Alike R other) (f : Context → Context) :
    ({ session with context := f session.context } : Session σ).Alike R
      { other with context := f other.context } :=
  ⟨h.database, h.evaluation, congrArg f h.context⟩

/-- Hooks of alike sessions run on the same context. -/
theorem enterRun (h : session.Alike R other) (phase : Phase) :
    (session.enterRun (.running occasion.source phase) occasion.transaction).Alike R
      (other.enterRun (.running occasion.source phase) occasion.transaction) :=
  h.mapContext (occasion.runningContext phase)

/-- Sessions stay alike if the evaluators go on from them in related states. -/
theorem withEvaluation (h : session.Alike R other) {state : σ} {state' : τ} (hR : R state state') :
    ({ session with evaluation := state } : Session σ).Alike R
      { other with evaluation := state' } :=
  ⟨h.database, hR, h.context⟩

/-- Sessions stay alike whatever is published about hooks. -/
theorem report (h : session.Alike R other) (declaredAt : Path)
    (result result' : Except HookError Unit) :
    (session.report occasion declaredAt result).Alike R
      (other.report occasion declaredAt result') := by
  obtain ⟨failures, evaluation, hR, rfl⟩ := h.exists_eq
  cases result <;> cases result' <;> exact ⟨rfl, hR, rfl⟩

/-- Dropping locks and configuration at the end of a mutation leaves sessions alike. -/
theorem drop (h : session.Alike R other) :
    ((session.dropLocks mutation).dropConfig settings transaction mutation).Alike R
      ((other.dropLocks mutation).dropConfig settings transaction mutation) := by
  obtain ⟨failures, evaluation, hR, rfl⟩ := h.exists_eq
  unfold Session.dropConfig Database.recordChanges
  dsimp only
  split <;> exact ⟨rfl, hR, rfl⟩

/-- The three steps of a mutation without hooks have the same result and leave alike sessions
behind. -/
theorem performPlain (h : session.Alike R other) {result : Except MutationError Unit}
    (hplain : session.performPlain settings transaction mutation = (result, after)) :
    ∃ after', other.performPlain settings transaction mutation = (result, after') ∧
      after.Alike R after' := by
  have hperforms := session.performsPlain_performPlain settings transaction mutation
  rw [hplain] at hperforms
  -- Each way that the steps go on the one session is a way that they go on the other.
  cases hperforms with
  | locked hlocks =>
    obtain ⟨checked', hlocks', hchecked⟩ := h.checkLocks hlocks
    exact ⟨_, performPlain_eq_of_performsPlain (.locked hlocks'), hchecked⟩
  | unresolved hlocks hresolve =>
    obtain ⟨checked', hlocks', hchecked⟩ := h.checkLocks hlocks
    obtain ⟨resolved', hresolve', hresolved⟩ := hchecked.resolve hresolve
    exact ⟨_, performPlain_eq_of_performsPlain (.unresolved hlocks' hresolve'), hresolved⟩
  | rejected hlocks hresolve hstore =>
    obtain ⟨checked', hlocks', hchecked⟩ := h.checkLocks hlocks
    obtain ⟨resolved', hresolve', hresolved⟩ := hchecked.resolve hresolve
    rw [← hresolved.store_eq] at hstore
    exact ⟨_, performPlain_eq_of_performsPlain (.rejected hlocks' hresolve' hstore), hresolved⟩
  | @applied _ _ _ store hlocks hresolve hstore =>
    obtain ⟨checked', hlocks', hchecked⟩ := h.checkLocks hlocks
    obtain ⟨resolved', hresolve', hresolved⟩ := hchecked.resolve hresolve
    rw [← hresolved.store_eq] at hstore
    exact ⟨_, performPlain_eq_of_performsPlain (.applied hlocks' hresolve' hstore),
      hresolved.withStore store⟩

/-- What is left to do after the three steps leaves sessions alike. -/
theorem settlePlain (h : session.Alike R other) :
    (session.settlePlain settings transaction mutation).Alike R
      (other.settlePlain settings transaction mutation) := by
  unfold Session.settlePlain
  dsimp only
  refine drop ?_
  split
  next error resolved hresolve =>
    obtain ⟨resolved', hresolve', hresolved⟩ := h.resolve hresolve
    rw [hresolve']
    exact hresolved.report _ (.error (.config error)) (.error (.config error))
  next entry resolved hresolve =>
    obtain ⟨resolved', hresolve', hresolved⟩ := h.resolve hresolve
    rw [hresolve']
    exact hresolved

/-- A mutation asked for by hooks has the same result and leaves alike sessions behind. -/
theorem performNested (env : Environment L σ) (env' : Environment L' τ)
    (hsettings : env.settings = env'.settings) (h : session.Alike R other)
    (hrunning : session.context.guard.IsRunning) {result : Except MutationError Unit}
    (hperform : env.performNested transaction mutation session = (result, after)) :
    ∃ after', env'.performNested transaction mutation other = (result, after') ∧
      after.Alike R after' := by
  have hplain : env.performWith Environment.idleHost transaction mutation session = _ :=
    Environment.performWith_eq_of_running hrunning
  have hplain' : env'.performWith Environment.idleHost transaction mutation other = _ :=
    Environment.performWith_eq_of_running (h.context ▸ hrunning)
  unfold Environment.performNested at hperform ⊢
  rw [hplain] at hperform
  rw [hplain', ← hsettings]
  split at hperform
  next hsteps =>
    obtain ⟨rfl, rfl⟩ := Prod.mk.inj hperform
    obtain ⟨after', hsteps', hafter⟩ := h.performPlain hsteps
    rw [hsteps']
    exact ⟨_, rfl, hafter⟩
  next hsteps =>
    obtain ⟨rfl, rfl⟩ := Prod.mk.inj hperform
    obtain ⟨after', hsteps', hafter⟩ := h.performPlain hsteps
    rw [hsteps']
    exact ⟨_, rfl, hafter.settlePlain⟩

end Session.Alike

/-! ### What scripts ask for -/

/-- The mutations that a script asks for while it is carried out. -/
def Script.asked (host : Mutation → σ → Except MutationError Unit × σ)
    (handle : (op : L.Op) → σ → L.Reply op × σ) : Script L α → σ → List Mutation
  | done _, _ => []
  | perform mutation next, state =>
    let (reply, state) := host mutation state
    mutation :: asked host handle (next reply) state
  | call op next, state =>
    let (reply, state) := handle op state
    asked host handle (next reply) state

/-- Performs mutations for hooks one after another, whatever comes of them. -/
def Environment.performEach (env : Environment L σ) (transaction : TransactionId)
    (mutations : List Mutation) (session : Session σ) : Session σ :=
  mutations.foldl (fun session mutation => (env.performNested transaction mutation session).2)
    session

/-- If operations leave the database and the context alone, then what a script leaves behind is what
the mutations it asks for lead to, whoever performs them. -/
theorem Script.alike_run (env : Environment L σ) (env' : Environment L' τ)
    (hsettings : env.settings = env'.settings) (hdatabase : env.evaluator.KeepsDatabase)
    (hcontext : env.evaluator.KeepsContext) (transaction : TransactionId) (script : Script L α)
    {session : Session σ} {other : Session τ} (h : session.Alike (fun _ _ => True) other)
    (hrunning : session.context.guard.IsRunning) :
    (script.run (env.performNested transaction)
        (fun op => env.evaluator.handle op transaction) session).2.Alike (fun _ _ => True)
      (env'.performEach transaction (script.asked (env.performNested transaction)
        (fun op => env.evaluator.handle op transaction) session) other) := by
  induction script generalizing session other with
  | done value => exact h
  | perform mutation next ih =>
    have hcontext' := (env.keepsRunning_performWith Environment.idleHost) transaction mutation
      session hrunning
    obtain ⟨after', hperform', hafter⟩ := h.performNested env env' hsettings hrunning
      (Prod.eta (env.performNested transaction mutation session)).symm
    have hnext := ih (env.performNested transaction mutation session).1 hafter (by
      rw [Environment.performNested, hcontext']
      exact hrunning)
    rw [Script.run, Script.asked, Environment.performEach, List.foldl_cons, hperform']
    exact hnext
  | call op next ih =>
    have hkept : (env.evaluator.handle op transaction session).2.Alike (fun _ _ => True) other := by
      refine ⟨?_, trivial, ?_⟩
      · rw [hdatabase]
        exact h.database
      · rw [hcontext]
        exact h.context
    exact ih (env.evaluator.handle op transaction session).1 hkept
      ((hcontext op transaction session).symm ▸ hrunning)

end DocTree
