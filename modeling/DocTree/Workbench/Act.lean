import DocTree.Hook.Script
import DocTree.Store.Mutation

/-!
# Scripted programs

Hook programs and transaction bodies written as lists of acts, which are carried out in order until
one fails.

## Main definitions

* `WorkbenchOp` and `workbenchLanguage`: what acts can ask for beyond mutations.
* `Act`: one act, and `Act.script`: what it does.
* `Act.scriptOfAll`: what a list of acts does.
-/

namespace DocTree

/-- The operations that acts can ask for beyond mutations. -/
inductive WorkbenchOp where
  /-- Records that a program runs. -/
  | record (program : String) (vars : Variables) (call : Option HookCall)
  /-- Draws the next number of a counter. -/
  | count (counter : Nat)
  /-- Notes down the context and what the program was told. -/
  | trace (vars : Variables) (call : Option HookCall)
  /-- Notes down whether the configuration of a collection can be determined. -/
  | resolve (collection : Except StoreError Path)
  /-- Locks a document for a principal and notes down whether that succeeded. -/
  | lock (path : Except StoreError Path) (owner : Principal)
  /-- Commits the running transaction behind the database's back. -/
  | commit
  /-- Aborts the running transaction behind the database's back. -/
  | abort

/-- The language of scripted programs. -/
def workbenchLanguage : HookLanguage where
  Op := WorkbenchOp
  Reply
    | .count _ => Nat
    | .commit | .abort => Except StoreError Unit
    | _ => Unit

/-- A script of the language of scripted programs. -/
abbrev WorkbenchScript := Script workbenchLanguage

/-- Why a list of acts stops early. -/
inductive ActFailure where
  /-- The program itself fails. -/
  | program (cause : ProgramError)
  /-- A mutation fails. -/
  | mutation (cause : MutationError)
  deriving DecidableEq, Repr

namespace ActFailure

/-- The failure of a hook program: that of a mutation counts as one of the program. -/
def asProgramError : ActFailure → ProgramError
  | program cause => cause
  | mutation cause => .eval cause.message

/-- The failure of a transaction body: that of a program counts as one beneath the store. -/
def asMutationError : ActFailure → MutationError
  | program cause => .storage (.backend cause.message)
  | mutation cause => cause

end ActFailure

/-- One act of a scripted program. A mutation whose failure does not matter is lenient. -/
inductive Act where
  /-- Performs a mutation, if its paths are in order. -/
  | perform (mutation : Except StoreError Mutation) (lenient : Bool)
  /-- Creates a document whose path is a text with the next number and `.xml` appended. -/
  | createNumbered (stem : String) (content : Content) (lenient : Bool)
  /-- Creates a document whose path is the text of a variable with something appended. -/
  | createFromVariable (variableName suffix : String) (content : Content) (lenient : Bool)
  /-- Fails. -/
  | fail (cause : ActFailure)
  /-- Fails if a variable has a text; `none` stands for no text and for no variable. -/
  | failIf (variableName : String) (text : Option String) (message : String)
  /-- Fails if a function of the given name was called. -/
  | failIfCalled (localName message : String)
  /-- Notes down the context, and what the program was told. -/
  | trace
  /-- Notes down whether the configuration of a collection can be determined. -/
  | resolve (collection : Except StoreError Path)
  /-- Locks a document for a principal and notes down whether that succeeded. -/
  | lock (path : Except StoreError Path) (owner : Principal)
  /-- Commits the running transaction behind the database's back. -/
  | commit
  /-- Aborts the running transaction behind the database's back. -/
  | abort

/-- What acts are carried out with. -/
structure ActSetting where
  /-- The variables. -/
  vars : Variables
  /-- The function that was called. -/
  call : Option HookCall
  /-- The counter for numbered documents. -/
  counter : Nat

namespace Act

/-- Stops if the condition holds. -/
def stopIf (condition : Bool) (cause : ActFailure) : WorkbenchScript (Except ActFailure Unit) :=
  .done (if condition then .error cause else .ok ())

/-- Performs a mutation; if it is lenient its failure is dropped. -/
def performing (lenient : Bool) (mutation : Mutation) : WorkbenchScript (Except ActFailure Unit) :=
  .perform mutation fun reply =>
    .done (if lenient then .ok () else reply.mapError .mutation)

/-- Creates a document at a path given as text. -/
def creating (path : String) (content : Content) (lenient : Bool) :
    WorkbenchScript (Except ActFailure Unit) :=
  match Path.ofText path with
  | .ok path => performing lenient (.createDocument path content)
  | .error e => .done (.error (.program (.eval e.message)))

/-- Asks for an operation whose reply does not matter. -/
def asking (op : WorkbenchOp) : WorkbenchScript (Except ActFailure Unit) :=
  .call op fun _ => .done (.ok ())

/-- The end of a transaction behind the database's back. -/
def ended (reply : Except StoreError Unit) : WorkbenchScript (Except ActFailure Unit) :=
  .done (reply.mapError fun e => .mutation (.storage e))

/-- The text of a variable, if it is declared and has one. -/
def textOf (vars : Variables) (name : String) : Option String :=
  (vars.get? name).bind Value.text?

/-- What an act does. -/
def script (setting : ActSetting) : Act → WorkbenchScript (Except ActFailure Unit)
  | perform (.ok mutation) lenient => performing lenient mutation
  | perform (.error e) _ => .done (.error (.program (.eval e.message)))
  -- The number is drawn even if the path turns out to be none.
  | createNumbered stem content lenient =>
    .call (.count setting.counter) fun (n : Nat) =>
      creating (stem ++ toString n ++ ".xml") content lenient
  | createFromVariable name suffix content lenient =>
    creating ((textOf setting.vars name).getD "" ++ suffix) content lenient
  | fail cause => .done (.error cause)
  | failIf name text message =>
    stopIf (textOf setting.vars name = text) (.program (.eval message))
  | failIfCalled name message =>
    stopIf (setting.call.any fun call => call.localName = name) (.program (.eval message))
  | trace => asking (.trace setting.vars setting.call)
  | resolve collection => asking (.resolve collection)
  | lock path owner => asking (.lock path owner)
  | commit => .call .commit ended
  | abort => .call .abort ended

/-- What a list of acts does: one after another, until one fails. -/
def scriptOfAll (setting : ActSetting) : List Act → WorkbenchScript (Except ActFailure Unit)
  | [] => .done (.ok ())
  | act :: rest =>
    (act.script setting).bind fun
      | .ok () => scriptOfAll setting rest
      | .error cause => .done (.error cause)

end Act

end DocTree
