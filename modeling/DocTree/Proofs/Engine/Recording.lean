import DocTree.Proofs.Engine.Simulation

/-!
# Recording what hooks do

A hook sees its context whenever it is in control: when it begins, when something it asked for has
been answered, and when it ends. An evaluator that notes all this down, together with what it
compiles, does the same as the one it is made from, so its notes tell what happens when a mutation
is performed.

## Main definitions

* `Moment` and `LogEntry`: what is noted down.
* `Script.recorded`, `Program.recorded`, `Evaluator.recorded`, `Environment.recorded`: programs,
  evaluators and environments that note down what hooks do.
* `Environment.performLog`: what is noted down while a mutation is performed.

## Main results

* `Environment.simulates_recorded`: recording does not change what hooks do.
* `Environment.perform_recorded`: recording does not change what a mutation does.
-/

namespace DocTree

variable {L : HookLanguage} {α σ : Type}

/-! ### What is noted down -/

/-- One run of a hook program. -/
structure Execution where
  /-- Where the program comes from. -/
  source : ProgramSource
  /-- What it is told. -/
  vars : Variables
  /-- The function that is called, if it is not the program itself that runs. -/
  call : Option HookCall
  deriving DecidableEq

/-- What a running program has asked for, with the answer to a mutation. -/
inductive Answer where
  /-- A mutation. -/
  | mutation (mutation : Mutation) (reply : Except MutationError Unit)
  /-- An operation of the language. -/
  | operation

/-- A moment at which a running program is in control. -/
inductive Moment where
  /-- It begins. -/
  | begins (execution : Execution)
  /-- Something it has asked for was answered. -/
  | resumes (answer : Answer)
  /-- It ends. -/
  | ends (result : Except ProgramError Unit)

/-- What is noted down. -/
inductive LogEntry where
  /-- A program was compiled: it failed, or it declares functions. -/
  | compiled (source : ProgramSource) (result : Except ProgramError (HookCall → Bool))
  /-- A program is in control, in a transaction and on a context. -/
  | observed (moment : Moment) (transaction : TransactionId) (context : Context)

/-! ### Recording programs -/

/-- The language whose programs can also have a moment noted down. -/
def HookLanguage.recorded (L : HookLanguage) : HookLanguage where
  Op := L.Op ⊕ Moment
  Reply
    | .inl op => L.Reply op
    | .inr _ => Unit

/-- Has a moment noted down and goes on. -/
def Script.noting (moment : Moment) (next : Script L.recorded α) : Script L.recorded α :=
  .call (.inr moment) fun _ => next

/-- The script that also has every moment noted down. -/
def Script.recorded : Script L (Except ProgramError Unit) →
    Script L.recorded (Except ProgramError Unit)
  | done result => noting (.ends result) (done result)
  | perform mutation next =>
    perform mutation fun reply => noting (.resumes (.mutation mutation reply)) (next reply).recorded
  | call op next =>
    call (.inl op) fun reply => noting (.resumes .operation) (next reply).recorded

/-- The program of a source that also has every moment noted down. -/
def Program.recorded (program : Program L) (source : ProgramSource) : Program L.recorded where
  declares := program.declares
  body vars call := .noting (.begins ⟨source, vars, call⟩) (program.body vars call).recorded

/-! ### Recording evaluators -/

/-- A session with something added to the log. -/
def Session.noting (session : Session (σ × List LogEntry)) (entry : LogEntry) :
    Session (σ × List LogEntry) :=
  { session with evaluation := (session.evaluation.1, session.evaluation.2 ++ [entry]) }

/-- The evaluator that also keeps a log. -/
def Evaluator.recorded (evaluator : Evaluator L σ) :
    Evaluator L.recorded (σ × List LogEntry) where
  compile source state :=
    match evaluator.compile source state.1 with
    | (.error cause, next) => (.error cause, next, state.2 ++ [.compiled source (.error cause)])
    | (.ok program, next) =>
      (.ok (program.recorded source), next, state.2 ++ [.compiled source (.ok program.declares)])
  handle op transaction session :=
    match op with
    | .inl op =>
      let (reply, after) := evaluator.handle op transaction (session.mapEvaluation Prod.fst)
      (reply, after.mapEvaluation fun state => (state, session.evaluation.2))
    | .inr moment => ((), session.noting (.observed moment transaction session.context))

/-- The environment whose evaluator also keeps a log. -/
def Environment.recorded (env : Environment L σ) : Environment L.recorded (σ × List LogEntry) where
  settings := env.settings
  evaluator := env.evaluator.recorded

/-- A session with an empty log. -/
def Session.recording (session : Session σ) : Session (σ × List LogEntry) :=
  session.mapEvaluation fun state => (state, [])

/-- What is noted down while a mutation is performed. -/
def Environment.performLog (env : Environment L σ) (transaction : TransactionId)
    (mutation : Mutation) (session : Session σ) : List LogEntry :=
  (env.recorded.perform transaction mutation session.recording).2.evaluation.2

/-! ### Recording changes nothing -/

namespace Session

variable (session : Session (σ × List LogEntry)) (entry : LogEntry)

/-- A note is added at the end of the log. -/
@[simp]
theorem log_noting : (session.noting entry).evaluation.2 = session.evaluation.2 ++ [entry] := rfl

@[simp]
theorem database_noting : (session.noting entry).database = session.database := rfl

end Session

namespace Evaluator

variable {evaluator : Evaluator L σ} {source : ProgramSource} {state : σ × List LogEntry} {next : σ}

/-- A program that does not compile is noted down. -/
theorem compile_recorded_of_error {cause : ProgramError}
    (h : evaluator.compile source state.1 = (.error cause, next)) :
    evaluator.recorded.compile source state =
      (.error cause, next, state.2 ++ [.compiled source (.error cause)]) := by
  unfold recorded
  dsimp only
  rw [h]

theorem compile_recorded_of_ok {program : Program L}
    (h : evaluator.compile source state.1 = (.ok program, next)) :
    evaluator.recorded.compile source state =
      (.ok (program.recorded source), next,
        state.2 ++ [.compiled source (.ok program.declares)]) := by
  unfold recorded
  dsimp only
  rw [h]

end Evaluator

/-- Having a moment noted down adds it to the log. -/
theorem Script.run_noting {env : Environment L σ} {transaction : TransactionId}
    {host : Mutation → Session (σ × List LogEntry) →
      Except MutationError Unit × Session (σ × List LogEntry)}
    (moment : Moment) (next : Script L.recorded α) (session : Session (σ × List LogEntry)) :
    (Script.noting moment next).run host
        (fun op => env.recorded.evaluator.handle op transaction) session =
      next.run host (fun op => env.recorded.evaluator.handle op transaction)
        (session.noting (.observed moment transaction session.context)) := rfl

/-- On a running context, a script does the same whether or not it has its moments noted down. -/
theorem Script.run_recorded {env : Environment L σ} {transaction : TransactionId}
    {host : Mutation → Session (σ × List LogEntry) →
      Except MutationError Unit × Session (σ × List LogEntry)}
    {host' : Mutation → Session σ → Except MutationError Unit × Session σ}
    (hkeeps : env.evaluator.KeepsContext)
    (hagree : ∀ mutation session, session.context.guard.IsRunning →
      Agrees Prod.fst session.context (host mutation session)
        (host' mutation (session.mapEvaluation Prod.fst)))
    (script : Script L (Except ProgramError Unit)) (session : Session (σ × List LogEntry))
    (h : session.context.guard.IsRunning) :
    Agrees Prod.fst session.context
      (script.recorded.run host (fun op => env.recorded.evaluator.handle op transaction) session)
      (script.run host' (fun op => env.evaluator.handle op transaction)
        (session.mapEvaluation Prod.fst)) := by
  induction script generalizing session with
  | done result => exact ⟨rfl, rfl⟩
  | perform mutation next ih =>
    obtain ⟨heq, hcontext⟩ := hagree mutation session h
    rw [recorded, Script.run, Script.run, heq]
    dsimp only
    rw [run_noting, ← hcontext]
    exact ih _ (Session.noting _ _) (hcontext ▸ h)
  | call op next ih =>
    -- The log is put back as it was after the operation.
    have hcontext : (env.recorded.evaluator.handle (.inl op) transaction session).2.context =
        session.context := hkeeps op transaction (session.mapEvaluation Prod.fst)
    have hrunning : (env.recorded.evaluator.handle (.inl op) transaction
        session).2.context.guard.IsRunning := hcontext ▸ h
    rw [← hcontext]
    exact ih _ ((env.recorded.evaluator.handle (.inl op) transaction session).2.noting
      (.observed (.resumes .operation) transaction _)) hrunning

namespace Environment

variable {env : Environment L σ}

/-- Recording keeps the context if the operations of the language do. -/
theorem keepsContext_recorded (hkeeps : env.evaluator.KeepsContext) :
    env.recorded.evaluator.KeepsContext := by
  intro op transaction session
  cases op with
  | inl op => exact hkeeps op transaction (session.mapEvaluation Prod.fst)
  | inr moment => rfl

/-- Recording does not change what hooks do. -/
theorem simulates_recorded {host : Host (σ × List LogEntry)} {host' : Host σ}
    (hkeeps : env.evaluator.KeepsContext)
    (hagree : ∀ transaction mutation session, session.context.guard.IsRunning →
      Agrees Prod.fst session.context (host transaction mutation session)
        (host' transaction mutation (session.mapEvaluation Prod.fst))) :
    Simulates env.recorded env Prod.fst host host' := by
  -- Compiling a recorded program adds to the log and does nothing else.
  refine ⟨rfl, fun source state => ?_, fun source state => ?_⟩
  · show _ = Prod.fst (env.evaluator.recorded.compile source state).2
    cases hcompile : env.evaluator.compile source state.1 with
    | mk result next =>
      cases result with
      | error cause => rw [Evaluator.compile_recorded_of_error hcompile]
      | ok program => rw [Evaluator.compile_recorded_of_ok hcompile]
  · show ProgramsAgree _ _ _ _ _ (env.evaluator.recorded.compile source state).1 _
    cases hcompile : env.evaluator.compile source state.1 with
    | mk result next =>
      cases result with
      | error cause =>
        rw [Evaluator.compile_recorded_of_error hcompile]
        exact .error cause
      | ok program =>
        rw [Evaluator.compile_recorded_of_ok hcompile]
        refine .ok rfl fun transaction vars call session h => ?_
        exact Script.run_recorded hkeeps (hagree transaction) (program.body vars call)
          (session.noting _) h

/-- Recording does not change what the mutations of hooks do. -/
theorem simulates_performNested (hkeeps : env.evaluator.KeepsContext) :
    Simulates env.recorded env Prod.fst env.recorded.performNested env.performNested := by
  -- The hosts of nested hooks come first: their own host performs nothing.
  have hidle : Simulates env.recorded env Prod.fst idleHost idleHost :=
    simulates_recorded hkeeps fun _ _ _ _ => ⟨rfl, rfl⟩
  refine simulates_recorded hkeeps fun transaction mutation session h => ⟨?_, ?_⟩
  · exact hidle.performWith transaction mutation session
  · exact (sameRest_performWith_of_running _ _ _ _ _ h).2

/-- Recording does not change what a mutation does. -/
theorem perform_recorded (hkeeps : env.evaluator.KeepsContext) (transaction : TransactionId)
    (mutation : Mutation) (session : Session (σ × List LogEntry)) :
    env.perform transaction mutation (session.mapEvaluation Prod.fst) =
      ((env.recorded.perform transaction mutation session).1,
        (env.recorded.perform transaction mutation session).2.mapEvaluation Prod.fst) :=
  (simulates_performNested hkeeps).performWith transaction mutation session

end Environment

end DocTree
