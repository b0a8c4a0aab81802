import DocTree.Proofs.Engine.Coherence
import DocTree.Proofs.Engine.Hooks

/-!
# Coherence over whole runs

A run starts from a new database and consists of requests made one after another: transactions are
opened and ended in any order, mutations are performed in them with all their hooks, and
configurations are determined. Whatever was requested, cached configuration agrees with the tree,
changes of configuration are recorded for active transactions only, and no configuration is left to
be resolved, so that nobody ever waits for one.

## Main definitions

* `Host.KeepsCoherence`: a host under which mutations keep cached configuration coherent.
* `Environment.Request`: one request to a database.
* `Environment.Reachable`: the sessions that runs lead to.

## Main results

* `Environment.performWith_keepsCoherence`: if the host of the hooks keeps configuration coherent,
  then so does performing a mutation with these hooks.
* `Environment.coherent_of_request` and `Environment.coherent_of_reachable`: every request, and
  hence every run, keeps cached configuration coherent.
* `Environment.atRest_of_request`, `Environment.atRest_of_reachable` and
  `Environment.request_ne_wait_of_reachable`: no slot is pending after a request, so nobody has to
  wait for a configuration.
* `Environment.load_eq_ok_of_cached`: after every run, what is cached is what loading it gives.
-/

namespace DocTree

variable {L : HookLanguage} {σ : Type}

/-- Mutations performed by a host keep cached configuration coherent, whatever is in doubt already,
do not forget that the configuration root was seen to, and do not end their transaction. -/
structure Host.KeepsCoherence (settings : Settings) (host : Host σ) : Prop where
  /-- The invariant is kept, up to what was in doubt. -/
  coherent : ∀ transaction doubt mutation session,
    Database.CoherentUpTo settings transaction doubt session.database →
    Database.CoherentUpTo settings transaction doubt (host transaction mutation session).2.database
  /-- That the configuration root was seen to is not forgotten. -/
  rootReady : ∀ transaction mutation session, session.database.resolver.rootReady = true →
    (host transaction mutation session).2.database.resolver.rootReady = true
  /-- The transaction stays active. -/
  standing : ∀ transaction mutation session, session.database.Standing transaction →
    (host transaction mutation session).2.database.Standing transaction

namespace Session

variable {settings : Settings} {transaction : TransactionId} {mutation : Mutation}
  {session : Session σ}

/-- The end of a mutation settles the doubt about its scope. -/
theorem coherent_dropConfig {doubt : List Path}
    (h : Database.CoherentUpTo settings transaction
      (settings.changeScope mutation.source mutation.destination? ++ doubt) session.database)
    (hstanding : session.database.Standing transaction) :
    Database.CoherentUpTo settings transaction doubt
      ((session.dropLocks mutation).dropConfig settings transaction mutation).database := by
  have hreleased : Database.CoherentUpTo settings transaction
      (settings.changeScope mutation.source mutation.destination? ++ doubt)
      (session.dropLocks mutation).database := h.congr rfl rfl rfl
  exact hreleased.dropped hstanding

end Session

namespace Host.KeepsCoherence

variable {env : Environment L σ} {host : Host σ} {transaction : TransactionId}

/-- A host that performs nothing keeps everything. -/
theorem idleHost (settings : Settings) :
    (Environment.idleHost : Host σ).KeepsCoherence settings where
  coherent _ _ _ _ h := h
  rootReady _ _ _ h := h
  standing _ _ _ h := h

/-- Nothing done for the hooks of a transaction breaks the invariant. -/
theorem coherentInvariant (hhost : host.KeepsCoherence env.settings) (doubt : List Path) :
    env.DatabaseInvariant host transaction
      (Database.CoherentUpTo env.settings transaction doubt) where
  host := hhost.coherent transaction doubt
  resolve _ collection h := h.resolve collection
  failures _ _ h := h.congr rfl rfl rfl

/-- Nothing done for the hooks of a transaction forgets that the configuration root was seen to. -/
theorem rootReadyInvariant (hhost : host.KeepsCoherence env.settings) :
    env.DatabaseInvariant host transaction fun database =>
      database.resolver.rootReady = true where
  host := hhost.rootReady transaction
  resolve _ _ h := Resolver.rootReady_resolve_of_ready h
  failures _ _ h := h

/-- Nothing done for the hooks of a transaction ends it. -/
theorem standingInvariant (hhost : host.KeepsCoherence env.settings) :
    env.DatabaseInvariant host transaction (Database.Standing transaction) :=
  .readyWith (P := fun store => store.status? transaction = some .active)
    (hhost.standing transaction)

end Host.KeepsCoherence

namespace Environment

variable {env : Environment L σ} {host : Host σ} {transaction : TransactionId}

/-- The first phase succeeds only once the configuration root was seen to. -/
theorem rootReady_of_runBefore {occasion : Occasion} {session after : Session σ}
    (hkeeps : env.evaluator.KeepsDatabase) (hhost : host.KeepsCoherence env.settings)
    (h : env.runBefore host occasion session = (.ok (), after)) :
    after.database.resolver.rootReady = true := by
  -- Whichever way it succeeds, the configuration was determined at first.
  have hresolved : ∀ {entry resolved},
      session.resolve env.settings occasion.owner = (.ok entry, resolved) →
      resolved.database.resolver.rootReady = true := by
    intro entry resolved hresolve
    obtain ⟨hentry, rfl⟩ := Session.eq_of_resolve hresolve
    exact Resolver.rootReady_of_resolve_ok hentry
  have hruns := env.runsBefore_runBefore host occasion session
  rw [h] at hruns
  cases hruns with
  | unbound hresolve => exact hresolved hresolve
  | engaged hresolve => exact hresolved hresolve
  | @passed entry resolved _ hresolve _ _ hrun =>
    have hready := hresolved hresolve
    have hran := (hhost.rootReadyInvariant.hookInvariant hkeeps).runUntilFailure occasion
      entry.config.bindings
      (resolved.enterRun (.running occasion.source .before) occasion.transaction) hready
    rw [hrun] at hran
    exact hran

/-- A property of databases holds after a mutation was performed if nothing done for its hooks
breaks it, and if dropping configuration restores it from a property that holds once the store has
applied the mutation and that nothing done for the hooks breaks either. -/
theorem performWith_invariant (hkeeps : env.evaluator.KeepsDatabase)
    (hhost : host.KeepsCoherence env.settings) {mutation : Mutation} {session : Session σ}
    {P Q : Database → Prop} (hP : env.DatabaseInvariant host transaction P)
    (hQ : env.DatabaseInvariant host transaction Q)
    (hlocks : ∀ database locks, P database → P { database with locks })
    (happlied : ∀ database store, P database → database.resolver.rootReady = true →
      database.store.perform transaction mutation = .ok store → Q { database with store })
    (hdropped : ∀ session : Session σ, Q session.database →
      P ((session.dropLocks mutation).dropConfig env.settings transaction mutation).database)
    (h : P session.database) :
    P (env.performWith host transaction mutation session).2.database :=
  hP.performWith hQ hkeeps hlocks
    (fun _ told _ hbefore htold hstore =>
      happlied told.database _ htold (rootReady_of_runBefore hkeeps hhost hbefore) hstore)
    hdropped h

/-- If the host of the hooks keeps configuration coherent, then so does performing a mutation. -/
theorem performWith_keepsCoherence (hfile : env.settings.fileName ≠ "db")
    (hkeeps : env.evaluator.KeepsDatabase) (hhost : host.KeepsCoherence env.settings) :
    (env.performWith host).KeepsCoherence env.settings where
  coherent transaction doubt mutation session h := by
    -- While the second phase runs, the scope of the mutation is in doubt.
    refine performWith_invariant hkeeps hhost (hhost.coherentInvariant doubt)
      ((hhost.coherentInvariant
        (env.settings.changeScope mutation.source mutation.destination? ++ doubt)).and
          hhost.standingInvariant)
      (fun _ _ h => h.congr rfl rfl rfl) (fun database store h hready hstore => ?_)
      (fun session h => Session.coherent_dropConfig h.1 h.2) h
    exact ⟨h.applied hfile hstore, hready, Store.status?_of_perform hstore⟩
  rootReady transaction mutation session h :=
    performWith_invariant hkeeps hhost hhost.rootReadyInvariant hhost.rootReadyInvariant
      (fun _ _ h => h) (fun _ _ h _ _ => h)
      (fun _ h => Session.rootReady_dropConfig.trans h) h
  standing transaction mutation session h := by
    refine performWith_invariant hkeeps hhost hhost.standingInvariant hhost.standingInvariant
      (fun _ _ h => h) (fun _ _ h _ hstore => ⟨h.1, Store.status?_of_perform hstore⟩)
      (fun session h => ?_) h
    refine ⟨Session.rootReady_dropConfig.trans h.1, ?_⟩
    rw [Session.store_dropConfig]
    exact h.2

/-- Performing a mutation with the hooks bound to it keeps configuration coherent. -/
theorem perform_keepsCoherence (hfile : env.settings.fileName ≠ "db")
    (hkeeps : env.evaluator.KeepsDatabase) : env.perform.KeepsCoherence env.settings :=
  performWith_keepsCoherence hfile hkeeps
    (performWith_keepsCoherence hfile hkeeps (.idleHost env.settings))

/-! ### Runs -/

/-- One request to a database, with the session before and the session after it. -/
inductive Request (env : Environment L σ) : Session σ → Session σ → Prop where
  /-- A transaction is opened. -/
  | beginTransaction (session : Session σ) : Request env session session.beginTransaction.2
  /-- A mutation is performed. -/
  | perform (session : Session σ) (transaction : TransactionId) (mutation : Mutation) :
      Request env session (env.perform transaction mutation session).2
  /-- A transaction is committed. -/
  | commit (session : Session σ) (transaction : TransactionId) :
      Request env session (session.commit transaction).2
  /-- A transaction is aborted. -/
  | abort (session : Session σ) (transaction : TransactionId) :
      Request env session (session.abort transaction).2
  /-- A body is run in a transaction of its own. -/
  | transaction {α : Type} (session : Session σ) (body : Script L (Except MutationError α)) :
      Request env session (env.transaction body session).2
  /-- A configuration is determined. -/
  | resolve (session : Session σ) (collection : Path) :
      Request env session (session.resolve env.settings collection).2
  /-- Something happens to locks, the clock, the feed of failures, the evaluator or the context. -/
  | aside (before after : Session σ) (hstore : after.database.store = before.database.store)
      (hresolver : after.database.resolver = before.database.resolver)
      (hchanges : after.database.configChanges = before.database.configChanges) :
      Request env before after

/-- The sessions that runs lead to: a run starts from a new database and makes one request after
another. -/
inductive Reachable (env : Environment L σ) : Session σ → Prop where
  /-- The run without requests. -/
  | initial (evaluation : σ) (context : Context) :
      Reachable env ⟨.initial env.settings, evaluation, context⟩
  /-- A run with one more request. -/
  | step {before after : Session σ} (h : Reachable env before)
      (hrequest : env.Request before after) : Reachable env after

/-- Running a body in a transaction of its own keeps configuration coherent. -/
theorem coherent_transaction {α : Type} (hfile : env.settings.fileName ≠ "db")
    (hkeeps : env.evaluator.KeepsDatabase) (body : Script L (Except MutationError α))
    {session : Session σ} (h : session.database.Coherent env.settings) :
    (env.transaction body session).2.database.Coherent env.settings := by
  have hran : Database.CoherentUpTo env.settings session.beginTransaction.1 []
      (body.run (env.perform session.beginTransaction.1)
        (fun op => env.evaluator.handle op session.beginTransaction.1)
        session.beginTransaction.2).2.database := by
    refine Script.run_invariant (P := fun state : Session σ =>
        Database.CoherentUpTo env.settings session.beginTransaction.1 [] state.database)
      (fun mutation state hstate => ?_) (fun op state hstate => ?_) body (h _).beginTransaction
    · exact (perform_keepsCoherence hfile hkeeps).coherent _ [] mutation state hstate
    · rw [hkeeps]
      exact hstate
  unfold transaction
  dsimp only
  -- The body is followed by a commit or an abort.
  split
  · exact fun _ => hran.commit.of_nil
  · exact fun _ => hran.abort.of_nil

/-- Every request keeps configuration coherent. -/
theorem coherent_of_request (hfile : env.settings.fileName ≠ "db")
    (hkeeps : env.evaluator.KeepsDatabase) {before after : Session σ}
    (hrequest : env.Request before after) (h : before.database.Coherent env.settings) :
    after.database.Coherent env.settings := by
  cases hrequest with
  | beginTransaction => exact fun other => (h other).beginTransaction
  | perform _ transaction mutation =>
    exact fun _ => ((perform_keepsCoherence hfile hkeeps).coherent transaction [] mutation _
      (h transaction)).of_nil
  | commit _ transaction => exact fun _ => (h transaction).commit.of_nil
  | abort _ transaction => exact fun _ => (h transaction).abort.of_nil
  | transaction _ body => exact coherent_transaction hfile hkeeps body h
  | resolve _ collection => exact fun other => (h other).resolve collection
  | aside _ _ hstore hresolver hchanges =>
    exact fun other => (h other).congr hstore hresolver hchanges

/-- Every run keeps configuration coherent. -/
theorem coherent_of_reachable (hfile : env.settings.fileName ≠ "db")
    (hkeeps : env.evaluator.KeepsDatabase) {session : Session σ} (h : env.Reachable session) :
    session.database.Coherent env.settings := by
  -- Induction on the run; coherence is the invariant.
  induction h with
  | initial => exact fun other => .initial env.settings other []
  | step _ hrequest ih => exact coherent_of_request hfile hkeeps hrequest ih

/-! ### Nobody waits -/

/-- Nothing done for hooks leaves a pending slot behind, and neither does performing a mutation with
these hooks. -/
theorem atRestInvariant_performWith (hkeeps : env.evaluator.KeepsDatabase)
    (hhost : ∀ transaction, env.DatabaseInvariant host transaction fun database =>
      database.resolver.cache.AtRest) (transaction : TransactionId) :
    env.DatabaseInvariant (env.performWith host) transaction fun database =>
      database.resolver.cache.AtRest where
  host _ _ h := (hhost transaction).performWith (hhost transaction) hkeeps (fun _ _ h => h)
    (fun _ _ _ _ h _ => h) (fun _ h => Session.atRest_dropConfig h) h
  resolve _ collection h := Resolver.atRest_resolve h collection
  failures _ _ h := h

/-- Performing mutations in a transaction leaves no pending slot behind. -/
theorem atRestInvariant_perform (hkeeps : env.evaluator.KeepsDatabase)
    (transaction : TransactionId) :
    env.DatabaseInvariant env.perform transaction fun database =>
      database.resolver.cache.AtRest := by
  refine perform_induction (K := fun host => ∀ transaction, env.DatabaseInvariant host transaction
    fun database => database.resolver.cache.AtRest) (fun _ => ?_)
    (fun _ => atRestInvariant_performWith hkeeps) transaction
  exact ⟨fun _ _ h => h, fun _ collection h => Resolver.atRest_resolve h collection,
    fun _ _ h => h⟩

/-- Every request leaves no pending slot behind. -/
theorem atRest_of_request (hkeeps : env.evaluator.KeepsDatabase) {before after : Session σ}
    (hrequest : env.Request before after) (h : before.database.resolver.cache.AtRest) :
    after.database.resolver.cache.AtRest := by
  cases hrequest with
  | beginTransaction => exact h
  | perform _ transaction mutation =>
    exact (atRestInvariant_perform hkeeps transaction).host mutation before h
  | commit _ transaction => exact Database.atRest_endWith h transaction _ false
  | abort _ transaction => exact Database.atRest_endWith h transaction _ true
  | transaction _ body =>
    -- The mutations of the body leave none, and neither does the end of its transaction.
    have hbegun : before.beginTransaction.2.database.resolver.cache.AtRest := h
    have hran := Script.run_invariant
      (P := fun state : Session σ => state.database.resolver.cache.AtRest)
      (atRestInvariant_perform hkeeps before.beginTransaction.1).host
      (fun op state hstate => by
        rw [hkeeps op before.beginTransaction.1]
        exact hstate) body hbegun
    unfold Environment.transaction
    dsimp only
    split
    · exact Database.atRest_endWith hran _ _ false
    · exact Database.atRest_endWith hran _ _ true
  | resolve _ collection => exact Resolver.atRest_resolve h collection
  | aside _ _ _ hresolver =>
    rw [hresolver]
    exact h

/-- After every run, no slot is pending. -/
theorem atRest_of_reachable (hkeeps : env.evaluator.KeepsDatabase) {session : Session σ}
    (h : env.Reachable session) : session.database.resolver.cache.AtRest := by
  induction h with
  | initial => exact .empty
  | step _ hrequest ih => exact atRest_of_request hkeeps hrequest ih

/-- After every run, nobody who asks for a configuration has to wait. -/
theorem request_ne_wait_of_reachable (hkeeps : env.evaluator.KeepsDatabase) {session : Session σ}
    (h : env.Reachable session) (collection : Path) (flight : Flight) :
    (session.database.resolver.cache.request collection).1 ≠ .wait flight :=
  (atRest_of_reachable hkeeps h).request_ne_wait collection flight

/-- After every run, what is cached for a collection at or below the root collection is what loading
it from the tree gives, and something is recorded for active transactions only. -/
theorem load_eq_ok_of_cached (hfile : env.settings.fileName ≠ "db")
    (hkeeps : env.evaluator.KeepsDatabase) {session : Session σ} (h : env.Reachable session) :
    (∀ collection entry, collection.startsWith .root →
      session.database.resolver.cache.get? collection = some entry →
      EffectiveConfig.load env.settings session.database.store.tree collection =
        .ok entry.config) ∧
    ∀ transaction, (session.database.configChanges.get? transaction).isSome →
      session.database.store.status? transaction = some .active := by
  have hcoherent := coherent_of_reachable hfile hkeeps h 0
  refine ⟨fun collection entry hroot hcached => ?_, hcoherent.recorded⟩
  exact hcoherent.cached collection entry hroot hcached (Path.not_underAny_nil collection)

/-! ### A run with a declared hook -/

/-- An environment with default settings in which every program creates a collection. -/
def creating (path : Path) : Environment .mutationsOnly Unit where
  settings := .default
  evaluator := .creating path

/-- The collection below which the configuration document of the root collection lies. -/
def rootLevel : Path :=
  Settings.defaultRoot.append .root

/-- A run that determines the configuration of the root collection, declares a hook for it in a
transaction that stays open, and determines it again. -/
def declaringRun : Session Unit :=
  let env := creating rootLevel
  let session : Session Unit := ⟨.initial .default, (), .internal⟩
  let session := (session.resolve .default .root).2
  let (transaction, session) := session.beginTransaction
  let (_, session) := env.perform transaction (.createCollection rootLevel) session
  let (_, session) := env.perform transaction
    (.createDocument ((rootLevel.child? Settings.default.fileName.toList).getD .root)
      ("\x7b\"triggers\":[\x7b\"class\":\"QueryTrigger\"," ++
        "\"parameters\":[\x7b\"name\":\"query\",\"value\":\"q\"\x7d]\x7d]\x7d").toUTF8)
    session
  (session.resolve .default .root).2

/-- The run consists of requests. -/
theorem reachable_declaringRun : (creating rootLevel).Reachable declaringRun :=
  .step (.step (.step (.step (.step (.initial () .internal) (.resolve _ .root))
    (.beginTransaction _)) (.perform _ _ _)) (.perform _ _ _)) (.resolve _ .root)

/-- After the run with a declared hook, the cached configuration of the root collection holds the
hook, and what is recorded is recorded for the open transaction. -/
theorem load_eq_ok_of_declaringRun :
    (creating rootLevel).settings.fileName ≠ "db" ∧
    (creating rootLevel).evaluator.KeepsDatabase ∧
    (creating rootLevel).Reachable declaringRun ∧
    (∃ entry, declaringRun.database.resolver.cache.get? .root = some entry ∧
      entry.config.bindings ≠ [] ∧
      EffectiveConfig.load .default declaringRun.database.store.tree .root = .ok entry.config) ∧
    (declaringRun.database.configChanges.get? 2).isSome ∧
    declaringRun.database.store.status? 2 = some .active := by
  have hfile : (creating rootLevel).settings.fileName ≠ "db" := by decide
  have hkeeps : (creating rootLevel).evaluator.KeepsDatabase :=
    Evaluator.keepsDatabase_of_mutationsOnly _
  obtain ⟨hcached, hrecorded⟩ := load_eq_ok_of_cached hfile hkeeps reachable_declaringRun
  have hentry : (declaringRun.database.resolver.cache.get? .root).any
      (fun entry => !entry.config.bindings.isEmpty) = true := by
    decide +kernel
  have hchanges : (declaringRun.database.configChanges.get? 2).isSome := by decide +kernel
  refine ⟨hfile, hkeeps, reachable_declaringRun, ?_, hchanges, hrecorded 2 hchanges⟩
  cases hget : declaringRun.database.resolver.cache.get? .root with
  | none =>
    rw [hget] at hentry
    cases hentry
  | some entry =>
    rw [hget] at hentry
    refine ⟨entry, rfl, fun hnil => ?_, hcached .root entry (Path.startsWith_self _) hget⟩
    simp [hnil] at hentry

end Environment

end DocTree
