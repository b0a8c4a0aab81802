import DocTree.Proofs.Engine.Contexts
import DocTree.Proofs.Engine.Recording

/-!
# The steps of a phase

What comes of the hooks of a phase, one step for each hook in the order of its bindings: a hook does
not compile, is left alone, or is executed. A step determines what is noted down and how it fails,
and it accounts for what becomes of the journal and of the feed of failures: what a hook asks for is
added to the journal, and nothing but its own failure is published.

## Main definitions

* `HookStep`: what comes of one hook, with `HookStep.entries`, `HookStep.failure?`,
  `HookStep.applied` and `HookStep.published`.
* `HookStep.Fits`: a step is possible for its binding.
* `UntilFailure`: the steps are those of hooks that run until one fails.
* `Database.Quiescent`: the configuration root was seen to, and no resolution is under way.
* `Database.Accounts`: what was added to the journal and to the feed of failures.
* `Session.Adds` and `Session.Advances`: what was added to the log, the journal and the feed.
-/

namespace DocTree

variable {L : HookLanguage} {α σ : Type}

/-! ### Occasions -/

namespace Occasion

/-- The call for which a program of a binding that does not list the event declares a function. -/
def call (occasion : Occasion) (phase : Phase) : HookCall :=
  .ofEvent occasion.event phase occasion.source occasion.destination

/-- The run of the program of a binding. -/
def execution (occasion : Occasion) (phase : Phase) (binding : Binding) : Execution :=
  match binding.mode occasion.event with
  | .event =>
    ⟨binding.source, .ofEvent binding occasion.event phase occasion.source occasion.destination,
      none⟩
  | .function => ⟨binding.source, .ofParameters binding, some (occasion.call phase)⟩

/-- Where and when the hook of a binding is to run. -/
def site (occasion : Occasion) (phase : Phase) (binding : Binding) : HookSite :=
  ⟨binding.declaredAt, occasion.event, phase⟩

/-- What is published when hooks fail after the change. -/
def failure (occasion : Occasion) (declaredAt : Path) (error : HookError) : Failure where
  event := occasion.event
  path := occasion.primary
  declaredAt
  message := error.message
  transaction := occasion.transaction

end Occasion

/-! ### Steps -/

/-- What a mutation that was asked for adds to the journal. -/
def Answer.applied (transaction : TransactionId) : Answer → List JournalEntry
  | .mutation asked (.ok ()) => [⟨transaction, asked⟩]
  | .mutation _ (.error _) | .operation => []

/-- The entries of a log for moments in a transaction and on a context. -/
def LogEntry.ofMoments (transaction : TransactionId) (context : Context) (moments : List Moment) :
    List LogEntry :=
  moments.map fun moment => .observed moment transaction context

/-- What comes of one hook. -/
inductive HookOutcome where
  /-- Its program does not compile. -/
  | refused (cause : ProgramError)
  /-- Its program compiles, but neither it nor one of its functions is meant for the event. -/
  | skipped (declares : HookCall → Bool)
  /-- Its program is executed. -/
  | executed (declares : HookCall → Bool) (answers : List Answer)
      (result : Except ProgramError Unit)

/-- What comes of the hook of a binding. -/
structure HookStep where
  /-- The binding. -/
  binding : Binding
  /-- What comes of the hook. -/
  outcome : HookOutcome

namespace HookStep

/-- What the hook has asked for. -/
def answers (step : HookStep) : List Answer :=
  match step.outcome with
  | .executed _ answers _ => answers
  | .refused _ | .skipped _ => []

/-- What is noted down. -/
def entries (occasion : Occasion) (phase : Phase) (context : Context) (step : HookStep) :
    List LogEntry :=
  match step.outcome with
  | .refused cause => [.compiled step.binding.source (.error cause)]
  | .skipped declares => [.compiled step.binding.source (.ok declares)]
  | .executed declares answers result =>
    .compiled step.binding.source (.ok declares) ::
      LogEntry.ofMoments occasion.transaction context
        (.begins (occasion.execution phase step.binding) ::
          (answers.map Moment.resumes ++ [.ends result]))

/-- How the hook fails, if it does. -/
def failure? (occasion : Occasion) (phase : Phase) (step : HookStep) : Option HookError :=
  match step.outcome with
  | .refused cause => some (.compile (occasion.site phase step.binding) cause)
  | .executed _ _ (.error cause) => some (.eval (occasion.site phase step.binding) cause)
  | .skipped _ | .executed _ _ (.ok ()) => none

/-- What running the hook results in. -/
def result (occasion : Occasion) (phase : Phase) (step : HookStep) : Except HookError Unit :=
  match step.failure? occasion phase with
  | some error => .error error
  | none => .ok ()

/-- What the mutations that the hook asked for add to the journal. -/
def applied (occasion : Occasion) (step : HookStep) : List JournalEntry :=
  step.answers.flatMap (Answer.applied occasion.transaction)

/-- What is published when the hook has run after the change: its failure, if it has failed. -/
def published (occasion : Occasion) (step : HookStep) : List Failure :=
  (step.failure? occasion .after).toList.map (occasion.failure step.binding.declaredAt)

/-- The step is possible for its binding: a program is left alone only if a function of it would be
called and it does not declare this function. -/
def Fits (occasion : Occasion) (phase : Phase) (step : HookStep) : Prop :=
  match step.outcome with
  | .refused _ => True
  | .skipped declares =>
    step.binding.mode occasion.event = .function ∧ declares (occasion.call phase) = false
  | .executed declares _ _ =>
    step.binding.mode occasion.event = .event ∨ declares (occasion.call phase) = true

end HookStep

/-- The steps are those of the hooks of some bindings, in order, until one of them fails; the result
is that of the last step. -/
def UntilFailure (occasion : Occasion) (bindings : List Binding) (steps : List HookStep) :
    Except HookError Unit → Prop
  | .ok () =>
    steps.map HookStep.binding = bindings ∧ ∀ step ∈ steps, step.failure? occasion .before = none
  | .error error =>
    ∃ passed failing rest, steps = passed ++ [failing] ∧
      bindings = passed.map HookStep.binding ++ failing.binding :: rest ∧
      (∀ step ∈ passed, step.failure? occasion .before = none) ∧
      failing.failure? occasion .before = some error

/-- A hook that does not fail is followed by the steps of the others. -/
theorem UntilFailure.cons {occasion : Occasion} {bindings : List Binding} {steps : List HookStep}
    {result : Except HookError Unit} (h : UntilFailure occasion bindings steps result)
    {step : HookStep} (hstep : step.failure? occasion .before = none) :
    UntilFailure occasion (step.binding :: bindings) (step :: steps) result := by
  cases result with
  | ok _ =>
    obtain ⟨hbindings, hpassed⟩ := h
    exact ⟨by rw [List.map_cons, hbindings], List.forall_mem_cons.2 ⟨hstep, hpassed⟩⟩
  | error error =>
    obtain ⟨passed, failing, rest, rfl, rfl, hpassed, hfailing⟩ := h
    exact ⟨step :: passed, failing, rest, rfl, rfl, List.forall_mem_cons.2 ⟨hstep, hpassed⟩,
      hfailing⟩

/-! ### Accounts -/

/-- The configuration root was seen to, and no configuration is being resolved. -/
structure Database.Quiescent (database : Database) : Prop where
  /-- The configuration root was seen to. -/
  rootReady : database.resolver.rootReady = true
  /-- No slot of the cache is pending. -/
  atRest : database.resolver.cache.AtRest

namespace Database.Quiescent

variable {database : Database}

/-- Determining a configuration leaves no slot pending. -/
theorem resolve (h : database.Quiescent) (settings : Settings) (collection : Path) :
    (database.resolve settings collection).2.Quiescent where
  rootReady := Resolver.rootReady_resolve_of_ready h.rootReady
  atRest := Resolver.atRest_resolve h.atRest collection

/-- What has been determined is found again, whatever has become of the store. -/
theorem resolve_again (h : database.Quiescent) {settings : Settings} {collection : Path}
    {entry : CacheEntry} (hok : (database.resolve settings collection).1 = .ok entry)
    (store : Store) :
    { (database.resolve settings collection).2 with store }.resolve settings collection =
      (.ok entry, { (database.resolve settings collection).2 with store }) := by
  have hfound :
      (database.resolve settings collection).2.resolver.resolve settings store collection =
        (.ok entry, (database.resolve settings collection).2.resolver, store) :=
    Resolver.resolve_of_cached (h.resolve settings collection).rootReady
      (Resolver.get?_resolve_of_ok h.atRest hok) store
  generalize (database.resolve settings collection).2 = resolved at hfound ⊢
  rw [Database.resolve]
  dsimp only
  rw [hfound]

end Database.Quiescent

/-- If a database was quiescent, then it still is, and the journal and the feed of failures have
grown by given entries. -/
def Database.Accounts (before after : Database) (applied : List JournalEntry)
    (published : List Failure) : Prop :=
  before.Quiescent →
    after.Quiescent ∧
    after.store.journal = before.store.journal ++ applied ∧
    after.failures = published.foldl FailureFeed.publish before.failures

namespace Database.Accounts

variable {first second third : Database}

/-- If the store and the feed are as before, then nothing was added. -/
theorem of_eq (hquiet : first.Quiescent → second.Quiescent) (hstore : second.store = first.store)
    (hfailures : second.failures = first.failures) : Accounts first second [] [] := by
  intro h
  exact ⟨hquiet h, by rw [hstore, List.append_nil], hfailures⟩

/-- What is added in two steps is added. -/
theorem trans {applied applied' : List JournalEntry} {published published' : List Failure}
    (h : Accounts first second applied published)
    (hnext : Accounts second third applied' published') :
    Accounts first third (applied ++ applied') (published ++ published') := by
  intro hquiet
  obtain ⟨hquiet, hjournal, hfailures⟩ := h hquiet
  obtain ⟨hquiet, hjournal', hfailures'⟩ := hnext hquiet
  refine ⟨hquiet, ?_, ?_⟩
  · rw [hjournal', hjournal, List.append_assoc]
  · rw [hfailures', hfailures, List.foldl_append]

/-- Determining a configuration adds nothing. -/
theorem resolve (settings : Settings) (collection : Path) :
    Accounts first (first.resolve settings collection).2 [] [] := by
  intro hquiet
  refine ⟨hquiet.resolve settings collection, ?_, rfl⟩
  rw [show (first.resolve settings collection).2.store = first.store from
    Resolver.store_resolve_of_ready hquiet.rootReady, List.append_nil]

/-- Publishing a failure adds it to the feed. -/
theorem publish (failure : Failure) :
    Accounts first { first with failures := first.failures.publish failure } [] [failure] :=
  fun hquiet => ⟨⟨hquiet.rootReady, hquiet.atRest⟩, (List.append_nil _).symm, rfl⟩

/-- Applying a mutation adds it to the journal. -/
theorem perform {transaction : TransactionId} {mutation : Mutation} {store : Store}
    (h : first.store.perform transaction mutation = .ok store) :
    Accounts first { first with store } [⟨transaction, mutation⟩] [] :=
  fun hquiet => ⟨⟨hquiet.rootReady, hquiet.atRest⟩, Store.journal_of_perform h, rfl⟩

end Database.Accounts

/-- Something was added to the log, and, if the database is kept track of, to the journal and to the
feed of failures. -/
structure Session.Adds (tracked : Prop) (before after : Session (σ × List LogEntry))
    (entries : List LogEntry) (applied : List JournalEntry) (published : List Failure) : Prop where
  /-- What was added to the log. -/
  log : after.evaluation.2 = before.evaluation.2 ++ entries
  /-- What was added to the journal and to the feed. -/
  accounts : tracked → Database.Accounts before.database after.database applied published

namespace Session.Adds

variable {tracked : Prop} {first second third : Session (σ × List LogEntry)}

/-- What becomes of the context afterwards does not matter. -/
theorem congr {entries : List LogEntry} {applied : List JournalEntry} {published : List Failure}
    (h : Adds tracked first second entries applied published)
    (hevaluation : third.evaluation = second.evaluation)
    (hdatabase : third.database = second.database) :
    Adds tracked first third entries applied published where
  log := by rw [hevaluation, h.log]
  accounts := by
    rw [hdatabase]
    exact h.accounts

/-- Only the context may have changed. -/
theorem of_eq (hevaluation : second.evaluation = first.evaluation)
    (hdatabase : second.database = first.database) : Adds tracked first second [] [] [] where
  log := by rw [hevaluation, List.append_nil]
  accounts _ := by
    rw [hdatabase]
    exact .of_eq id rfl rfl

/-- The evaluator is as before, and what was added to the database is accounted for. -/
theorem of_accounts {applied : List JournalEntry} {published : List Failure}
    (hevaluation : second.evaluation = first.evaluation)
    (haccounts : Database.Accounts first.database second.database applied published) :
    Adds tracked first second [] applied published where
  log := by rw [hevaluation, List.append_nil]
  accounts _ := haccounts

/-- What is added in two steps is added. -/
theorem trans {entries entries' : List LogEntry} {applied applied' : List JournalEntry}
    {published published' : List Failure}
    (h : Adds tracked first second entries applied published)
    (hnext : Adds tracked second third entries' applied' published') :
    Adds tracked first third (entries ++ entries') (applied ++ applied')
      (published ++ published') where
  log := by rw [hnext.log, h.log, List.append_assoc]
  accounts htracked := (h.accounts htracked).trans (hnext.accounts htracked)

end Session.Adds

/-- Something was added on the same context. -/
structure Session.Advances (tracked : Prop) (before after : Session (σ × List LogEntry))
    (entries : List LogEntry) (applied : List JournalEntry) (published : List Failure) : Prop
    extends Session.Adds tracked before after entries applied published where
  /-- The context is as before. -/
  context : after.context = before.context

namespace Session.Advances

variable {tracked : Prop} {first second third : Session (σ × List LogEntry)}

/-- Nothing has to be added. -/
theorem refl : Advances tracked first first [] [] [] :=
  ⟨.of_eq rfl rfl, rfl⟩

/-- What is added in two steps is added. -/
theorem trans {entries entries' : List LogEntry} {applied applied' : List JournalEntry}
    {published published' : List Failure}
    (h : Advances tracked first second entries applied published)
    (hnext : Advances tracked second third entries' applied' published') :
    Advances tracked first third (entries ++ entries') (applied ++ applied')
      (published ++ published') :=
  ⟨h.toAdds.trans hnext.toAdds, hnext.context.trans h.context⟩

/-- A note is added to the log. -/
theorem noting (entry : LogEntry) :
    Advances tracked first (first.noting entry) [entry] [] [] :=
  ⟨⟨rfl, fun _ => .of_eq id rfl rfl⟩, rfl⟩

end Session.Advances

end DocTree
