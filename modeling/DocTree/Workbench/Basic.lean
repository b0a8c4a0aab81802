import DocTree.Engine.Transaction
import DocTree.Workbench.Act

/-!
# The evaluator of scripted programs

Scripted programs are registered under the text or location by which bindings name them. What they
were told, and what they noted down, is recorded.

## Main definitions

* `Workbench`: the registered programs and the records.
* `Workbench.environment`: settings with the evaluator of scripted programs.
* `Workbench.bodyOf`: the body of a transaction made of acts.
-/

namespace DocTree

/-- A registered program. -/
structure ScriptedProgram where
  /-- What it does. -/
  acts : List Act
  /-- The functions it declares for events, with the number of their arguments. -/
  functions : List (String × Nat)
  /-- The counter for its numbered documents. -/
  counter : Nat

/-- A record that a program ran. -/
structure ProgramRun where
  /-- The text or location of the program. -/
  program : String
  /-- Its variables. -/
  vars : Variables
  /-- The function that was called in it. -/
  call : Option HookCall
  /-- The transaction it ran in. -/
  transaction : TransactionId
  /-- Whether its context was engaged. -/
  running : Bool

/-- Something that a program noted down. -/
inductive Note where
  /-- The context, and what the program was told. -/
  | told (transaction : TransactionId) (context : Context) (vars : Variables)
      (call : Option HookCall)
  /-- How many bindings a collection has. -/
  | bindings (count : Nat)
  /-- Why the configuration of a collection cannot be determined. -/
  | unresolved (cause : ConfigError)
  /-- A path that was not in order. -/
  | badPath (cause : StoreError)
  /-- Whether a document was locked. -/
  | locked (success : Bool)

/-- The programs and records of scripted hooks. -/
structure Workbench where
  /-- The registered programs by text or location. -/
  programs : Table String ScriptedProgram
  /-- The records of programs that ran, in order. -/
  runs : List ProgramRun
  /-- How many times a program was compiled. -/
  compilations : Nat
  /-- What programs noted down, in order. -/
  notes : List Note
  /-- The next number of each counter that was drawn from. -/
  counts : Table Nat Nat
  /-- The next counter. -/
  nextCounter : Nat
  /-- The identities for tokens of locks. -/
  supply : TokenSupply

/-- A database whose hooks are scripted programs, with one context. -/
abbrev WorkbenchSession := Session Workbench

namespace Workbench

/-- A workbench without programs. -/
def empty (supply : TokenSupply) : Workbench where
  programs := .empty
  runs := []
  compilations := 0
  notes := []
  counts := .empty
  nextCounter := 0
  supply

/-- Takes a counter that is not used yet. -/
def takeCounter (bench : Workbench) : Nat × Workbench :=
  (bench.nextCounter, { bench with nextCounter := bench.nextCounter + 1 })

/-- Registers a program, instead of one of the same name. -/
def register (bench : Workbench) (name : String) (acts : List Act)
    (functions : List (String × Nat)) : Workbench :=
  let (counter, bench) := bench.takeCounter
  { bench with programs := bench.programs.set name { acts, functions, counter } }

/-- Forgets the records of programs that ran. -/
def clearRuns (bench : Workbench) : Workbench :=
  { bench with runs := [] }

/-- The number of records of a program. -/
def runCount (bench : Workbench) (program : String) : Nat :=
  bench.runs.countP fun execution => execution.program = program

/-- The name by which a source names a program. -/
def nameOf : ProgramSource → String
  | .inline program => program
  | .external location => location

/-- Compiles a program. -/
def compile (source : ProgramSource) (bench : Workbench) :
    Except ProgramError (Program workbenchLanguage) × Workbench :=
  let name := nameOf source
  match bench.programs.get? name with
  | none => (.error (.compile ("unknown program " ++ name)), bench)
  | some program =>
    (.ok {
      declares := fun call =>
        call.namespaceName = HookCall.eventNamespace
          && program.functions.contains (call.localName, call.arguments.length)
      body := fun vars call =>
        .call (.record name vars call) fun _ =>
          (Act.scriptOfAll { vars, call, counter := program.counter } program.acts).map
            fun result => result.mapError ActFailure.asProgramError },
      { bench with compilations := bench.compilations + 1 })

end Workbench

namespace Session

/-- Changes the workbench of a session. -/
def updateBench (session : WorkbenchSession) (f : Workbench → Workbench) : WorkbenchSession :=
  { session with evaluation := f session.evaluation }

/-- Notes something down. -/
def note (session : WorkbenchSession) (note : Note) : WorkbenchSession :=
  session.updateBench fun bench => { bench with notes := bench.notes ++ [note] }

/-- Replaces the store, or leaves it if there was an error. -/
def replaceStore (session : WorkbenchSession) :
    Except StoreError Store → Except StoreError Unit × WorkbenchSession
  | .ok store => (.ok (), { session with database := { session.database with store } })
  | .error e => (.error e, session)

/-- Locks a document with a new identity, for the default time. -/
def lockDocument (session : WorkbenchSession) (policy : LockPolicy) (path : Path)
    (owner : Principal) : Bool × WorkbenchSession :=
  let (fresh, supply) := session.evaluation.supply.draw
  let (result, locks) :=
    session.database.locks.lock policy session.database.now fresh path owner none
  (result.isOk,
    { session with
      database := { session.database with locks }
      evaluation := { session.evaluation with supply } })

end Session

namespace Workbench

/-- Carries out an operation of a scripted program. -/
def handle (settings : Settings) (permissions : Permissions) (op : WorkbenchOp)
    (transaction : TransactionId) (session : WorkbenchSession) :
    workbenchLanguage.Reply op × WorkbenchSession :=
  match op with
  | .record program vars call =>
    let running := session.context.isRunningHooks
    ((), session.updateBench fun bench =>
      { bench with
        runs := bench.runs ++ [{ program, vars, call, transaction, running }] })
  | .count counter =>
    let n := session.evaluation.counts.getD counter 0
    (n, session.updateBench fun bench => { bench with counts := bench.counts.set counter (n + 1) })
  | .trace vars call => ((), session.note (.told transaction session.context vars call))
  | .resolve (.error e) => ((), session.note (.badPath e))
  | .resolve (.ok collection) =>
    match session.resolve settings collection with
    | (.ok entry, session) => ((), session.note (.bindings entry.config.bindings.length))
    | (.error e, session) => ((), session.note (.unresolved e))
  | .lock (.error e) _ => ((), session.note (.badPath e))
  | .lock (.ok path) owner =>
    let (success, session) := session.lockDocument (settings.lockPolicy permissions) path owner
    ((), session.note (.locked success))
  | .commit => session.replaceStore (session.database.store.commit transaction)
  | .abort => session.replaceStore (session.database.store.abort transaction)

/-- Settings with the evaluator of scripted programs. -/
def environment (settings : Settings) (permissions : Permissions) :
    Environment workbenchLanguage Workbench where
  settings
  evaluator := { compile, handle := handle settings permissions }

/-- The body of a transaction made of acts, which are told nothing. -/
def bodyOf (acts : List Act) (counter : Nat) : WorkbenchScript (Except MutationError Unit) :=
  (Act.scriptOfAll { vars := .empty, call := none, counter } acts).map
    fun result => result.mapError ActFailure.asMutationError

end Workbench

end DocTree
