import DocTree.Proofs.Engine.Guarding
import DocTree.Proofs.Engine.Phases
import DocTree.Proofs.Lock.Register

/-!
# Locks and removals

A mutation that succeeds ends the locks on what it has removed. Nothing else that is done for it
changes which locks are live: not the check of the locks, which drops tokens that have expired
anyway, and not the hooks either, unless they ask for removals themselves. A mutation that fails
leaves all live locks as they were.

What hooks ask for is judged by what is noted down while the mutation is performed. A request has
had its effects before the answer to it is noted down, so the invariant of hooks looks at a request
and the note together.

## Main definitions

* `Database.KeepsLive` and `Evaluator.KeepsLive`: the clock stands still, and the same locks are
  live.
* `LogEntry.asksToRemove` and `RemovesNothing`: what hooks have asked for.
* `Session.LiveUnlessAsked`: the invariant of hooks.

## Main results

* `Environment.quiet_performNested`: what a mutation does to the live locks that a hook asks for.
* `Environment.liveUnlessAskedInvariant`: hooks change nothing about live locks unless they ask for
  removals.
* `Tree.ParentClosed.releases_of_removed`: a mutation ends the locks on all documents that it
  removes.
* `Environment.live?_perform`: which locks are live after a mutation.
-/

namespace DocTree

variable {L : HookLanguage} {σ : Type}

/-! ### Live locks -/

/-- The clock stands still, and the same locks are live. -/
structure Database.KeepsLive (before after : Database) : Prop where
  /-- The clock stands still. -/
  clock : after.clock = before.clock
  /-- The same locks are live. -/
  live : LockTable.SameLive before.now after.locks before.locks

namespace Database.KeepsLive

variable {first second third : Database}

theorem refl (database : Database) : KeepsLive database database :=
  ⟨rfl, fun _ => rfl⟩

theorem trans (h : KeepsLive first second) (hnext : KeepsLive second third) :
    KeepsLive first third := by
  have hnow : second.now = first.now := congrArg SteppedClock.now h.clock
  refine ⟨hnext.clock.trans h.clock, ?_⟩
  have hlive := hnext.live
  rw [hnow] at hlive
  exact hlive.trans h.live

end Database.KeepsLive

/-- The operations of the language do not move the clock and do not change which locks are live. -/
def Evaluator.KeepsLive (evaluator : Evaluator L σ) : Prop :=
  ∀ op transaction (session : Session σ),
    session.database.KeepsLive (evaluator.handle op transaction session).2.database

theorem Evaluator.KeepsDatabase.keepsLive {evaluator : Evaluator L σ}
    (h : evaluator.KeepsDatabase) : evaluator.KeepsLive := by
  intro op transaction session
  rw [h]
  exact .refl _

/-- A mutation that does not remove anything ends no locks. -/
theorem Mutation.releases_eq_false {mutation : Mutation} (h : mutation.vacatesSource = false)
    (path : Path) : mutation.releases path = false := by
  cases mutation with
  | moveCollection | deleteCollection | moveDocument | deleteDocument => cases h
  | _ => rfl

/-! ### What hooks ask for -/

/-- Whether a hook has asked for something to be deleted or moved. -/
def LogEntry.asksToRemove : LogEntry → Bool
  | .observed (.resumes (.mutation asked _)) _ _ => asked.vacatesSource
  | _ => false

/-- No hook has asked for anything to be deleted or moved. -/
def RemovesNothing (log : List LogEntry) : Prop :=
  ∀ entry ∈ log, entry.asksToRemove = false

instance (log : List LogEntry) : Decidable (RemovesNothing log) :=
  inferInstanceAs (Decidable (∀ entry ∈ log, entry.asksToRemove = false))

/-- A part of a log asks for no more than the whole. -/
theorem RemovesNothing.shorter {front log : List LogEntry} (h : RemovesNothing log)
    (hfront : front <+: log) : RemovesNothing front := by
  intro entry hentry
  exact h entry (hfront.subset hentry)

namespace Session

/-! ### The check and the end -/

variable {session : Session σ} {settings : Settings} {transaction : TransactionId}
  {mutation : Mutation} {result : Except MutationError Unit}

/-- Checking locks drops expired tokens only. -/
theorem keepsLive_checkLocks (session : Session σ) (settings : Settings) (mutation : Mutation) :
    session.database.KeepsLive (session.checkLocks settings mutation).2.database := by
  cases hcheck : session.checkLocks settings mutation with
  | mk result checked =>
    obtain ⟨locks, rfl, hevicts⟩ := evicts_of_checkLocks hcheck
    exact ⟨rfl, hevicts.live?_eq⟩

/-- A mutation that was applied ends the locks on what it has removed. -/
theorem get?_locks_finish (path : Path) :
    (session.finish settings transaction mutation result).database.locks.get? path =
      if result.isOk && mutation.releases path then none
      else session.database.locks.get? path := by
  cases result with
  | error error => rfl
  | ok _ =>
    rw [finish, locks_dropConfig, LockTable.get?_releaseFor]
    rfl

theorem live?_locks_finish (now : Instant) (path : Path) :
    (session.finish settings transaction mutation result).database.locks.live? now path =
      if result.isOk && mutation.releases path then none
      else session.database.locks.live? now path := by
  rw [LockTable.live?, get?_locks_finish]
  split <;> rfl

@[simp]
theorem clock_finish :
    (session.finish settings transaction mutation result).database.clock =
      session.database.clock := by
  cases result with
  | error error => rfl
  | ok _ => exact clock_dropConfig

@[simp]
theorem evaluation_finish :
    (session.finish settings transaction mutation result).evaluation = session.evaluation := by
  cases result <;> rfl

/-- The end of a mutation that does not remove anything changes no live locks. -/
theorem keepsLive_finish (h : mutation.vacatesSource = false) :
    session.database.KeepsLive
      (session.finish settings transaction mutation result).database := by
  refine ⟨clock_finish, fun path => ?_⟩
  rw [live?_locks_finish, mutation.releases_eq_false h, Bool.and_false]
  rfl

end Session

/-! ### Mutations that hooks ask for -/

/-- The log has grown, and the same locks are live. -/
structure Session.Quiet (before after : Session (σ × List LogEntry)) : Prop where
  /-- What was noted down stays there. -/
  log : before.evaluation.2 <+: after.evaluation.2
  /-- The same locks are live. -/
  live : before.database.KeepsLive after.database

variable {env : Environment L σ} {transaction : TransactionId}
  {origin session : Session (σ × List LogEntry)}

/-- Compiling a program is noted down. -/
theorem Evaluator.exists_log_compile_recorded (evaluator : Evaluator L σ) (source : ProgramSource)
    (state : σ × List LogEntry) :
    ∃ result, (evaluator.recorded.compile source state).2.2 =
      state.2 ++ [.compiled source result] := by
  cases hcompile : evaluator.compile source state.1 with
  | mk result next =>
    cases result with
    | error cause => exact ⟨_, by rw [compile_recorded_of_error hcompile]⟩
    | ok program => exact ⟨_, by rw [compile_recorded_of_ok hcompile]⟩

theorem Evaluator.KeepsLive.recorded {evaluator : Evaluator L σ} (h : evaluator.KeepsLive) :
    evaluator.recorded.KeepsLive := by
  intro op transaction session
  cases op with
  | inl op => exact h op transaction (session.mapEvaluation Prod.fst)
  | inr moment => exact .refl _

namespace Session.Quiet

theorem refl (session : Session (σ × List LogEntry)) : session.Quiet session :=
  ⟨List.prefix_rfl, .refl _⟩

theorem of_live {after : Session (σ × List LogEntry)} (h : origin.Quiet session)
    (hevaluation : after.evaluation = session.evaluation)
    (hlive : session.database.KeepsLive after.database) : origin.Quiet after where
  log := by
    rw [hevaluation]
    exact h.log
  live := h.live.trans hlive

/-- Compiling a program leaves the database alone, and is noted down. -/
theorem compiled (h : origin.Quiet session) (source : ProgramSource) :
    origin.Quiet { session with evaluation :=
      (env.recorded.evaluator.compile source session.evaluation).2 } where
  log := by
    obtain ⟨result, hlog⟩ := env.evaluator.exists_log_compile_recorded source session.evaluation
    refine h.log.trans ?_
    show session.evaluation.2 <+: (env.evaluator.recorded.compile source session.evaluation).2.2
    rw [hlog]
    exact List.prefix_append ..
  live := h.live

/-- With nobody to perform their mutations, no step of a hook changes live locks. -/
theorem hookInvariant (hlive : env.evaluator.KeepsLive) (origin : Session (σ × List LogEntry)) :
    env.recorded.HookInvariant Environment.idleHost transaction origin.Quiet where
  compile source session h := h.compiled source
  handle op session h := by
    refine ⟨h.log.trans ?_, h.live.trans (hlive.recorded op transaction session)⟩
    cases op with
    | inl op => exact List.prefix_rfl
    | inr moment => exact List.prefix_append ..
  host mutation session h := h

theorem sessionInvariant (hlive : env.evaluator.KeepsLive)
    (origin : Session (σ × List LogEntry)) :
    env.recorded.SessionInvariant Environment.idleHost transaction origin.Quiet where
  binding occasion htransaction := by
    subst htransaction
    exact (hookInvariant hlive origin).runBinding occasion
  resolve session collection h := h.of_live rfl ⟨rfl, fun _ => rfl⟩
  failures session failures h := h.of_live rfl ⟨rfl, fun _ => rfl⟩
  context session context h := h.of_live rfl (.refl _)

end Session.Quiet

/-- A mutation that a hook asks for leaves the log in place, and changes live locks only if it
removes something. -/
theorem Environment.quiet_performNested (hlive : env.evaluator.KeepsLive)
    (transaction : TransactionId) (mutation : Mutation) (session : Session (σ × List LogEntry)) :
    session.evaluation.2 <+:
      (env.recorded.performNested transaction mutation session).2.evaluation.2 ∧
    (mutation.vacatesSource = false → session.database.KeepsLive
      (env.recorded.performNested transaction mutation session).2.database) := by
  have hchecked : session.Quiet (session.checkLocks env.settings mutation).2 := by
    refine ⟨?_, session.keepsLive_checkLocks env.settings mutation⟩
    cases hcheck : session.checkLocks env.settings mutation with
    | mk result checked =>
      have hsame := (Session.sameRest_of_checkLocks hcheck).1
      simp [hsame]
  -- Hooks that run in here have no mutations of their own performed.
  obtain ⟨ran, hran, hafter⟩ := (Session.Quiet.sessionInvariant hlive session).performWith
    (fun _ _ h => h.of_live rfl ⟨rfl, fun _ => rfl⟩) hchecked
  rw [performNested, hafter]
  refine ⟨?_, fun hkept => hran.live.trans (Session.keepsLive_finish hkept)⟩
  rw [Session.evaluation_finish]
  exact hran.log

/-! ### Hooks -/

/-- The same locks are live as at first, unless hooks have asked for removals. -/
def Session.LiveUnlessAsked (origin session : Session (σ × List LogEntry)) : Prop :=
  RemovesNothing session.evaluation.2 → origin.database.KeepsLive session.database

namespace Session.LiveUnlessAsked

/-- A longer log asks for more. -/
theorem of_quiet {after : Session (σ × List LogEntry)} (h : origin.LiveUnlessAsked session)
    (hquiet : session.Quiet after) : origin.LiveUnlessAsked after :=
  fun hnothing => (h (hnothing.shorter hquiet.log)).trans hquiet.live

theorem noting (h : origin.LiveUnlessAsked session) (entry : LogEntry) :
    origin.LiveUnlessAsked (session.noting entry) :=
  h.of_quiet ⟨List.prefix_append .., .refl _⟩

/-- A request for a mutation is answered and noted down. -/
theorem request (hlive : env.evaluator.KeepsLive) (h : origin.LiveUnlessAsked session)
    (mutation : Mutation) (context : Context) :
    origin.LiveUnlessAsked
      ((env.recorded.performNested transaction mutation session).2.noting
        (.observed (.resumes (.mutation mutation
          (env.recorded.performNested transaction mutation session).1)) transaction context)) := by
  obtain ⟨hlog, hkept⟩ := env.quiet_performNested hlive transaction mutation session
  intro hnothing
  rw [log_noting] at hnothing
  -- The request itself is among those that remove nothing.
  have hasked : mutation.vacatesSource = false :=
    hnothing _ (List.mem_append_right _ (.head _))
  have hbefore := h (hnothing.shorter (hlog.trans (List.prefix_append ..)))
  exact hbefore.trans (hkept hasked)

/-- An operation of the language is answered. -/
theorem operation (hlive : env.evaluator.KeepsLive) (h : origin.LiveUnlessAsked session)
    (op : L.Op) :
    origin.LiveUnlessAsked (env.recorded.evaluator.handle (.inl op) transaction session).2 :=
  h.of_quiet ⟨List.prefix_rfl, hlive.recorded (.inl op) transaction session⟩

/-- A script changes nothing about live locks unless it asks for removals. -/
theorem outcome (hlive : env.evaluator.KeepsLive)
    (script : Script L (Except ProgramError Unit)) (h : origin.LiveUnlessAsked session) :
    origin.LiveUnlessAsked
      (script.outcome env Environment.idleHost transaction session).2 := by
  -- Induction on the script, a request and the note of its answer at a time.
  induction script generalizing session with
  | done result => exact h.noting _
  | perform mutation next ih =>
    rw [Script.outcome_perform]
    exact ih _ (h.request hlive mutation _)
  | call op next ih =>
    rw [Script.outcome_call]
    exact ih _ ((h.operation hlive op).noting _)

end Session.LiveUnlessAsked

namespace Environment

/-- Hooks change nothing about live locks unless they ask for removals. -/
theorem liveUnlessAskedInvariant (hlive : env.evaluator.KeepsLive)
    (origin : Session (σ × List LogEntry)) :
    env.recorded.SessionInvariant env.recorded.performNested transaction
      origin.LiveUnlessAsked where
  binding occasion _ phase binding session h := by
    have hcompiled : origin.LiveUnlessAsked { session with evaluation :=
        (env.recorded.evaluator.compile binding.source session.evaluation).2 } :=
      h.of_quiet (Session.Quiet.compiled (.refl session) binding.source)
    refine runBinding_invariant hcompiled fun program evaluation vars call hcompile => ?_
    rw [hcompile] at hcompiled
    -- What was compiled is a recorded program.
    cases hplain : env.evaluator.compile binding.source session.evaluation.1 with
    | mk result next =>
      cases result with
      | error cause =>
        have hrecorded : env.recorded.evaluator.compile binding.source session.evaluation = _ :=
          Evaluator.compile_recorded_of_error hplain
        rw [hcompile] at hrecorded
        cases hrecorded
      | ok original =>
        have hrecorded : env.recorded.evaluator.compile binding.source session.evaluation = _ :=
          Evaluator.compile_recorded_of_ok hplain
        rw [hcompile] at hrecorded
        cases hrecorded
        exact (hcompiled.noting _).outcome hlive (original.body vars call)
  resolve session collection h := h.of_quiet ⟨List.prefix_rfl, rfl, fun _ => rfl⟩
  failures session failures h := h.of_quiet ⟨List.prefix_rfl, rfl, fun _ => rfl⟩
  context session context h := h.of_quiet ⟨List.prefix_rfl, .refl _⟩

/-- A mutation is finished on live locks that nothing has changed, unless its hooks have asked for
removals. -/
theorem exists_finish_perform (hlive : env.evaluator.KeepsLive) (transaction : TransactionId)
    (mutation : Mutation) (session : Session (σ × List LogEntry)) :
    ∃ ran, session.LiveUnlessAsked ran ∧
      (env.recorded.perform transaction mutation session).2 =
        ran.finish env.settings transaction mutation
          (env.recorded.perform transaction mutation session).1 := by
  have hchecked : session.LiveUnlessAsked (session.checkLocks env.settings mutation).2 :=
    fun _ => session.keepsLive_checkLocks env.settings mutation
  exact (liveUnlessAskedInvariant hlive session).performWith
    (fun _ _ h => h.of_quiet ⟨List.prefix_rfl, rfl, fun _ => rfl⟩) hchecked

end Environment

/-! ### Documents that are removed -/

/-- A mutation ends the locks on every document that it removes. -/
theorem Tree.ParentClosed.releases_of_removed {tree : Tree} (h : tree.ParentClosed)
    {mutation : Mutation} {writes : List Write} (hwrites : tree.writes mutation = .ok writes)
    {path : Path} (hsome : (tree.document? path).isSome)
    (hnone : (tree.applyWrites writes).1.document? path = none) :
    mutation.releases path = true := by
  have hdisplaces : tree.Displaces mutation path := by
    refine ⟨hsome, writes, hwrites, Classical.byContradiction fun hmem => ?_⟩
    -- A path that is not written keeps its document.
    rw [document?_congr (tree.get?_applyWrites_of_notMem hmem)] at hnone
    rw [hnone] at hsome
    cases hsome
  have hguards := h.guards_of_displaces hdisplaces
  have hwritten : ∀ {content}, (tree.write path (some (.document content))).document? path ≠
      none := by
    intro content hgone
    exact document?_eq_none_iff.1 hgone content ((get?_write ..).trans (if_pos rfl))
  cases writes_eq_ok_iff.1 hwrites with
  | createCollection | updateCollection | copyCollection => exact hguards.elim
  | moveCollection | deleteCollection => exact hguards
  | createDocument | updateDocument | copyDocument =>
    -- The document is overwritten, but it is there.
    obtain rfl := hguards
    exact absurd hnone hwritten
  | deleteDocument => exact decide_eq_true hguards
  | moveDocument _ hfree =>
    obtain hsource | rfl := hguards
    · exact decide_eq_true hsource
    · -- There is nothing at the destination before.
      obtain ⟨content, hget⟩ := isSome_document?_iff.1 hsome
      rw [hfree.vacant] at hget
      cases hget

namespace Environment

variable {env : Environment L σ}

/-- After a mutation whose hooks ask for no removals, the same locks are live as before, but for
those on what the mutation has removed, if it was applied. If the tree that the store applies it to
has no gaps, then no tokens at all are left on documents that it has removed. There are no gaps in
this tree if there were none at first and only mutations change the database. -/
theorem live?_perform (hlive : env.evaluator.KeepsLive) (hcontext : env.evaluator.KeepsContext)
    (transaction : TransactionId) (mutation : Mutation) (session : Session σ)
    (hnothing : RemovesNothing (env.performLog transaction mutation session)) :
    let result := (env.perform transaction mutation session).1
    let after := (env.perform transaction mutation session).2.database
    let told := (env.beforeStore transaction mutation session).database.store
    after.clock = session.database.clock ∧
    (∀ path, after.locks.live? session.database.now path =
      if result.isOk && mutation.releases path then none
      else session.database.locks.live? session.database.now path) ∧
    (result = .ok () → told.tree.ParentClosed →
      ∃ store, told.perform transaction mutation = .ok store ∧
        ∀ path, (told.tree.document? path).isSome → store.tree.document? path = none →
          after.locks.get? path = none) ∧
    (env.evaluator.KeepsDatabase → session.database.store.tree.ParentClosed →
      told.tree.ParentClosed) := by
  intro result after told
  obtain ⟨ran, hran, hfinish⟩ :=
    exists_finish_perform hlive transaction mutation session.recording
  -- The mutation goes as it does when it is noted down what hooks do.
  have hrecorded : env.perform transaction mutation session = _ :=
    perform_recorded hcontext transaction mutation session.recording
  have hresult : result = (env.recorded.perform transaction mutation session.recording).1 :=
    congrArg Prod.fst hrecorded
  have hafter : after =
      (ran.finish env.settings transaction mutation result).database := by
    rw [hresult, ← hfinish]
    exact congrArg (fun outcome => outcome.2.database) hrecorded
  have hkept : session.database.KeepsLive ran.database := by
    refine hran ?_
    rw [performLog, hfinish, Session.evaluation_finish] at hnothing
    exact hnothing
  rw [hafter]
  refine ⟨Session.clock_finish.trans hkept.clock, fun path => ?_, fun hok hclosed => ?_,
    fun hkeeps => parentClosed_beforeStore hkeeps transaction mutation⟩
  · rw [Session.live?_locks_finish, hkept.live]
  · -- The documents are gone by the writes of the store, and their locks by its end.
    obtain ⟨store, hstore⟩ := (exists_store_of_ok hok).2
    obtain ⟨log, writes, -, hwrites, rfl⟩ := Store.perform_eq_ok_iff.1 hstore
    refine ⟨_, hstore, fun path hsome hnone => ?_⟩
    have hreleases := hclosed.releases_of_removed hwrites hsome hnone
    rw [Session.get?_locks_finish, hreleases, hok]
    rfl

/-- The run with a declared hook, with the document that declares it locked by alice. Bob has locked
a place where there is no document. -/
def lockedRun : Session Unit :=
  let policy := Settings.default.lockPolicy .all
  let declared := fileIn rootLevel Settings.default.fileName
  let locks := (LockTable.lock policy .empty .epoch "first" declared ⟨"alice"⟩ none).2
  let locks := (locks.lock policy .epoch "second" (fileIn copies "a") ⟨"bob"⟩ none).2
  { declaringRun with database := { declaringRun.database with locks } }

/-- The hook, which copies, asks for no removals. When the collection with its declaration is
deleted, alice's lock ends and bob's does not. -/
theorem live?_perform_lockedRun :
    let result := (copying.perform 2 (.deleteCollection rootLevel) lockedRun).1
    let after := (copying.perform 2 (.deleteCollection rootLevel) lockedRun).2.database
    let told := (copying.beforeStore 2 (.deleteCollection rootLevel) lockedRun).database.store
    copying.evaluator.KeepsLive ∧ copying.evaluator.KeepsContext ∧
    RemovesNothing (copying.performLog 2 (.deleteCollection rootLevel) lockedRun) ∧
    (copying.performLog 2 (.deleteCollection rootLevel) lockedRun).length = 8 ∧
    result = .ok () ∧
    (lockedRun.database.locks.live? lockedRun.database.now
      (fileIn rootLevel Settings.default.fileName)).isSome ∧
    after.locks.live? lockedRun.database.now (fileIn rootLevel Settings.default.fileName) = none ∧
    after.locks.live? lockedRun.database.now (fileIn copies "a") =
      lockedRun.database.locks.live? lockedRun.database.now (fileIn copies "a") ∧
    told.tree.ParentClosed ∧
    ∃ store, told.perform 2 (.deleteCollection rootLevel) = .ok store ∧
      ∀ path, (told.tree.document? path).isSome → store.tree.document? path = none →
        after.locks.get? path = none := by
  intro result after told
  have hkeeps := copying.evaluator.keepsDatabase_of_mutationsOnly
  have hlive := hkeeps.keepsLive
  have hcontext := copying.evaluator.keepsContext_of_mutationsOnly
  obtain ⟨hnothing, hlength⟩ :
      RemovesNothing (copying.performLog 2 (.deleteCollection rootLevel) lockedRun) ∧
        (copying.performLog 2 (.deleteCollection rootLevel) lockedRun).length = 8 := by
    decide +kernel
  have hok : result = .ok () := by decide +kernel
  obtain ⟨-, hlocks, hremoved, hintact⟩ :=
    live?_perform hlive hcontext 2 (.deleteCollection rootLevel) lockedRun hnothing
  have hclosed : told.tree.ParentClosed := hintact hkeeps (by decide +kernel)
  have hreleases : (Mutation.deleteCollection rootLevel).releases
      (fileIn rootLevel Settings.default.fileName) = true := by
    decide
  have hspared : (Mutation.deleteCollection rootLevel).releases (fileIn copies "a") = false := by
    decide
  refine ⟨hlive, hcontext, hnothing, hlength, hok, by decide +kernel, ?_, ?_, hclosed,
    hremoved hok hclosed⟩
  · refine (hlocks _).trans (if_pos ?_)
    rw [hreleases, Bool.and_true]
    exact congrArg Except.isOk hok
  · refine (hlocks _).trans (if_neg ?_)
    rw [hspared, Bool.and_false]
    exact Bool.false_ne_true

end Environment

end DocTree
