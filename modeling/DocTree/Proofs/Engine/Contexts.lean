import DocTree.Proofs.Engine.Hooks
import DocTree.Proofs.Engine.Nesting

/-!
# Contexts before and after a mutation

The marker of a context is set when the hooks of a mutation begin to run, suspended between the
phases, and removed at the end, on every way that the mutation can go. In between, the mutations of
hooks leave it alone.

## Main definitions

* `Context.IsIdle`: no hooks run on a context.
* `Occasion.runningContext` and `Occasion.suspendedContext`: a context while the hooks of a phase
  run, and between the phases.

## Main results

* `Environment.context_runUntilFailure` and `Environment.context_runAndPublish`: hooks leave the
  context on which they run alone.
* `Environment.context_runBefore_of_error`, `Environment.context_runBefore_of_ok` and
  `Environment.context_runAfter`: what the phases leave behind.
* `Environment.context_performWith`: a mutation leaves an idle context idle.
-/

namespace DocTree

variable {L : HookLanguage} {σ : Type}

/-- No hooks run on the context, and none are between their phases. -/
structure Context.IsIdle (context : Context) : Prop where
  /-- There is no marker. -/
  guard : context.guard = .idle
  /-- There is no transaction that running hooks belong to. -/
  hookTransaction : context.hookTransaction = none

namespace Context.IsIdle

variable {context : Context}

theorem marker_eq_none (h : context.IsIdle) : context.guard.marker = none := by
  rw [h.guard]
  rfl

/-- Ending a run leaves nothing of it on a context that was idle before. -/
theorem eq_of_ended (h : context.IsIdle) :
    { context with guard := .idle, hookTransaction := none } = context := by
  obtain ⟨guard, hookTransaction, principal⟩ := context
  obtain ⟨rfl, rfl⟩ := h
  rfl

end Context.IsIdle

namespace Occasion

/-- The context on which the hooks of a phase run. -/
def runningContext (occasion : Occasion) (phase : Phase) (context : Context) : Context :=
  { context with
    guard := .running occasion.source phase
    hookTransaction := some occasion.transaction }

/-- The context between the phases. -/
def suspendedContext (occasion : Occasion) (context : Context) : Context :=
  { context with
    guard := (Guard.running occasion.source .before).suspend
    hookTransaction := some occasion.transaction }

/-- Ending a run that began on an idle context leaves it idle. -/
theorem endRun_runningContext (occasion : Occasion) (phase : Phase) {context : Context}
    (h : context.IsIdle) : (occasion.runningContext phase context).endRun = context :=
  h.eq_of_ended

/-- A context is as before the first phase of an occasion, or between its phases. -/
def LeavesBehind (occasion : Occasion) (context after : Context) : Prop :=
  after = context ∨ after = occasion.suspendedContext context

variable {occasion : Occasion} {context after : Context}

/-- Between the phases, the second phase can begin. -/
theorem LeavesBehind.free (h : occasion.LeavesBehind context after)
    (hidle : context.guard.marker = none) :
    after.guard.marker = none ∨ after.guard.isSuspendedOn occasion.source = true := by
  rcases h with rfl | rfl
  · exact .inl hidle
  · right
    simp [suspendedContext, Guard.running, Guard.suspend, Guard.isSuspendedOn]

/-- Between the phases, giving up the run leaves the context idle. -/
theorem LeavesBehind.discardRun (h : occasion.LeavesBehind context after)
    (hidle : context.IsIdle) : after.discardRun occasion.source = context := by
  rcases h with rfl | rfl
  · exact Context.discardRun_eq_self (by rw [hidle.guard]; rfl)
  · have hsuspended : ((Guard.running occasion.source .before).suspend).isSuspendedOn
        occasion.source = true := by
      simp [Guard.running, Guard.suspend, Guard.isSuspendedOn]
    unfold Context.discardRun Guard.discard suspendedContext
    dsimp only
    rw [if_pos hsuspended]
    exact hidle.eq_of_ended

/-- The context of a phase does not depend on what the phase before it has left behind. -/
theorem LeavesBehind.runningContext (h : occasion.LeavesBehind context after) (phase : Phase) :
    occasion.runningContext phase after = occasion.runningContext phase context := by
  rcases h with rfl | rfl <;> rfl

end Occasion

/-- The mutations of a host leave running contexts alone. -/
def Host.KeepsRunning (host : Host σ) : Prop :=
  ∀ transaction mutation session, session.context.guard.IsRunning →
    (host transaction mutation session).2.context = session.context

namespace Environment

variable {env : Environment L σ} {host : Host σ}

/-- Performing a mutation leaves running contexts alone. -/
theorem keepsRunning_performWith (env : Environment L σ) (host : Host σ) :
    (env.performWith host).KeepsRunning :=
  fun transaction mutation session h =>
    (env.sameRest_performWith_of_running host transaction mutation session h).2

/-- No step of a hook changes the running context. -/
theorem contextInvariant (hkeeps : env.evaluator.KeepsContext) (hhost : host.KeepsRunning)
    (transaction : TransactionId) {context : Context} (h : context.guard.IsRunning) :
    env.HookInvariant host transaction fun session => session.context = context where
  compile _ _ hcontext := hcontext
  handle op session hcontext := (hkeeps op transaction session).trans hcontext
  host mutation session hcontext :=
    (hhost transaction mutation session (hcontext ▸ h)).trans hcontext

/-- Hooks that run before a change leave the context on which they run alone. -/
theorem context_runUntilFailure (hkeeps : env.evaluator.KeepsContext) (hhost : host.KeepsRunning)
    (occasion : Occasion) (bindings : List Binding) (session : Session σ)
    (h : session.context.guard.IsRunning) :
    (env.runUntilFailure host occasion bindings session).2.context = session.context :=
  (contextInvariant hkeeps hhost occasion.transaction h).runUntilFailure occasion bindings session
    rfl

/-- Hooks that run after a change leave the context on which they run alone. -/
theorem context_runAndPublish (hkeeps : env.evaluator.KeepsContext) (hhost : host.KeepsRunning)
    (occasion : Occasion) (bindings : List Binding) (session : Session σ)
    (h : session.context.guard.IsRunning) :
    (env.runAndPublish host occasion bindings session).context = session.context :=
  (contextInvariant hkeeps hhost occasion.transaction h).runAndPublish occasion
    (fun _ _ _ hcontext => hcontext) bindings session rfl

variable {occasion : Occasion} {session after : Session σ}

/-- While the hooks of the first phase run, the context is the one on which they run. -/
theorem context_of_runUntilFailure (hkeeps : env.evaluator.KeepsContext)
    (hhost : host.KeepsRunning) {collection : Path} {bindings : List Binding}
    {resolved ran : Session σ} {entry : Except ConfigError CacheEntry}
    {result : Except HookError Unit}
    (hresolve : session.resolve env.settings collection = (entry, resolved))
    (hrun : env.runUntilFailure host occasion bindings
      (resolved.enterRun (.running occasion.source .before) occasion.transaction) = (result, ran)) :
    ran.context = occasion.runningContext .before session.context := by
  have hcontext := context_runUntilFailure hkeeps hhost occasion bindings
    (resolved.enterRun (.running occasion.source .before) occasion.transaction) ⟨_, _, rfl⟩
  rw [hrun] at hcontext
  rw [← (Session.sameRest_of_resolve hresolve).2]
  exact hcontext

/-- If hooks prevent a mutation, then the context is idle again. -/
theorem context_runBefore_of_error (hkeeps : env.evaluator.KeepsContext)
    (hhost : host.KeepsRunning) (hidle : session.context.IsIdle) {error : HookError}
    (h : env.runBefore host occasion session = (.error error, after)) :
    after.context = session.context := by
  have hruns := env.runsBefore_runBefore host occasion session
  rw [h] at hruns
  cases hruns with
  | unresolved hresolve => exact (Session.sameRest_of_resolve hresolve).2
  | @failed _ _ ran _ hresolve _ hrun =>
    show ran.context.endRun = session.context
    rw [context_of_runUntilFailure hkeeps hhost hresolve hrun,
      occasion.endRun_runningContext _ hidle]

/-- If hooks do not prevent a mutation, then the context is as before, or between the phases. -/
theorem context_runBefore_of_ok (hkeeps : env.evaluator.KeepsContext)
    (hhost : host.KeepsRunning)
    (h : env.runBefore host occasion session = (.ok (), after)) :
    occasion.LeavesBehind session.context after.context := by
  have hruns := env.runsBefore_runBefore host occasion session
  rw [h] at hruns
  cases hruns with
  | unbound hresolve => exact .inl (Session.sameRest_of_resolve hresolve).2
  | engaged hresolve => exact .inl (Session.sameRest_of_resolve hresolve).2
  | @passed _ _ ran hresolve _ _ hrun =>
    right
    -- The hooks have left the marker alone, so it is this marker that is suspended.
    show { ran.context with guard := ran.context.guard.suspend } = _
    rw [context_of_runUntilFailure hkeeps hhost hresolve hrun]
    rfl

/-- After the second phase, the context is idle again. -/
theorem context_runAfter (hkeeps : env.evaluator.KeepsContext) (hhost : host.KeepsRunning)
    {context : Context} (hidle : context.IsIdle)
    (h : occasion.LeavesBehind context session.context) :
    (env.runAfter host occasion session).context = context := by
  -- Where no hook runs, the run of the first phase is given up.
  have hdiscarded : ∀ {result resolved},
      session.resolve env.settings occasion.owner = (result, resolved) →
      (resolved.discardRun occasion.source).context = context := by
    intro result resolved hresolve
    rw [show (resolved.discardRun occasion.source).context =
      resolved.context.discardRun occasion.source from rfl,
      (Session.sameRest_of_resolve hresolve).2]
    exact h.discardRun hidle
  have hruns := env.runsAfter_runAfter host occasion session
  generalize env.runAfter host occasion session = after at hruns ⊢
  cases hruns with
  | unresolved hresolve => exact hdiscarded hresolve
  | unbound hresolve => exact hdiscarded hresolve
  | engaged _ hengaged hother =>
    rcases h.free hidle.marker_eq_none with hfree | hfree
    · exact absurd hfree hengaged
    · rw [hother] at hfree
      cases hfree
  | @ran entry resolved hresolve =>
    have hcontext := context_runAndPublish hkeeps hhost occasion entry.config.bindings
      (resolved.enterRun (.running occasion.source .after) occasion.transaction) ⟨_, _, rfl⟩
    show (env.runAndPublish host occasion entry.config.bindings _).context.endRun = context
    rw [hcontext]
    show (occasion.runningContext .after resolved.context).endRun = context
    rw [(Session.sameRest_of_resolve hresolve).2, h.runningContext,
      occasion.endRun_runningContext _ hidle]

/-- Performing a mutation leaves an idle context as it is. -/
theorem context_performWith (hkeeps : env.evaluator.KeepsContext) (hhost : host.KeepsRunning)
    {transaction : TransactionId} {mutation : Mutation} (hidle : session.context.IsIdle) :
    (env.performWith host transaction mutation session).2.context = session.context := by
  have hperforms := env.performs_performWith host transaction mutation session
  generalize (env.performWith host transaction mutation session).1 = result,
    (env.performWith host transaction mutation session).2 = after at hperforms ⊢
  cases hperforms with
  | locked hlocks => exact (Session.sameRest_of_checkLocks hlocks).2
  | prevented hlocks hbefore =>
    have hchecked := (Session.sameRest_of_checkLocks hlocks).2
    exact (context_runBefore_of_error hkeeps hhost (hchecked ▸ hidle) hbefore).trans hchecked
  | rejected hlocks hbefore =>
    have hchecked := (Session.sameRest_of_checkLocks hlocks).2
    have hbehind := context_runBefore_of_ok hkeeps hhost hbefore
    exact (hbehind.discardRun (hchecked ▸ hidle)).trans hchecked
  | @applied checked told store hlocks hbefore =>
    have hchecked := (Session.sameRest_of_checkLocks hlocks).2
    have hbehind := context_runBefore_of_ok hkeeps hhost hbefore
    have hafter : (env.runAfter host (.of transaction mutation)
        { told with database := { told.database with store } }).context = checked.context :=
      context_runAfter hkeeps hhost (hchecked ▸ hidle) hbehind
    exact hafter.trans hchecked

end Environment

end DocTree
