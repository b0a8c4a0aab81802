import DocTree.Hook.Error
import DocTree.Hook.Variables
import DocTree.Store.Mutation

/-!
# Hook scripts

What a running hook does, seen from the database: it asks for mutations and for the operations of
its language, one at a time, goes on according to the replies, and ends with a value. A script is
the tree of all ways this can go, so it always ends.

## Main definitions

* `HookLanguage`: the operations of a language beyond mutations.
* `Script`: what a hook, or the body of a transaction, does.
* `Script.run`: carries a script out.
* `Program`: a compiled hook program.
-/

namespace DocTree

/-- The operations, beyond mutations, that the programs of a language can ask for. -/
structure HookLanguage where
  /-- The operations. -/
  Op : Type
  /-- What comes back from an operation. -/
  Reply : Op → Type

/-- The language whose programs ask for mutations only. -/
def HookLanguage.mutationsOnly : HookLanguage where
  Op := Empty
  Reply op := op.elim

/-- A course of requests that goes on according to the replies and ends with a value. -/
inductive Script (L : HookLanguage) (α : Type) where
  /-- The end, with a value. -/
  | done (value : α)
  /-- Asks for a mutation. -/
  | perform (mutation : Mutation) (next : Except MutationError Unit → Script L α)
  /-- Asks for an operation of the language. -/
  | call (op : L.Op) (next : L.Reply op → Script L α)

namespace Script

variable {L : HookLanguage} {α β σ : Type}

/-- Goes on with another script that may depend on the value of the first. -/
def bind (script : Script L α) (next : α → Script L β) : Script L β :=
  match script with
  | done value => next value
  | perform mutation rest => perform mutation fun reply => (rest reply).bind next
  | call op rest => call op fun reply => (rest reply).bind next

/-- Changes the value at the end. -/
def map (f : α → β) (script : Script L α) : Script L β :=
  script.bind fun value => done (f value)

/-- Carries a script out: `host` performs its mutations, `handle` its other operations. -/
def run (host : Mutation → σ → Except MutationError Unit × σ)
    (handle : (op : L.Op) → σ → L.Reply op × σ) : Script L α → σ → α × σ
  | done value, state => (value, state)
  | perform mutation next, state =>
    let (reply, state) := host mutation state
    run host handle (next reply) state
  | call op next, state =>
    let (reply, state) := handle op state
    run host handle (next reply) state

end Script

/-- A compiled hook program. -/
structure Program (L : HookLanguage) where
  /-- Whether the program declares a function that a call refers to. -/
  declares : HookCall → Bool
  /-- What the program does with its variables, as a whole or when one of its functions is
  called. -/
  body : Variables → Option HookCall → Script L (Except ProgramError Unit)

end DocTree
