/-!
# Insertion-ordered tables

A table binds keys to values and lists its bindings in the order in which the keys were first
bound. Binding a key again replaces its value in place.

## Main definitions

* `Table.get?`, `Table.set`, `Table.erase`: look-up, binding and removal of a key.

## Main results

* `Table.get?_set` and `Table.get?_erase`: what look-up finds after a change.
-/

namespace DocTree

/-- Bindings of keys to values, in the order in which the keys were first bound. -/
structure Table (κ α : Type) where
  /-- The bindings in order. -/
  entries : List (κ × α)
  deriving DecidableEq, Repr

namespace Table

variable {κ α : Type} [DecidableEq κ]

/-- The table without bindings. -/
def empty : Table κ α :=
  ⟨[]⟩

instance : Inhabited (Table κ α) := ⟨empty⟩

/-- The value of the first binding of `key` in a list of bindings. -/
def find? (key : κ) : List (κ × α) → Option α
  | [] => none
  | (k, a) :: rest => if k = key then some a else find? key rest

/-- Gives the first binding of `key` the value `value`, or adds such a binding at the end. -/
def bind (key : κ) (value : α) : List (κ × α) → List (κ × α)
  | [] => [(key, value)]
  | (k, a) :: rest => if k = key then (key, value) :: rest else (k, a) :: bind key value rest

/-- The value bound to a key. -/
def get? (table : Table κ α) (key : κ) : Option α :=
  find? key table.entries

/-- Binds a key: in place if it is bound already, else at the end. -/
def set (table : Table κ α) (key : κ) (value : α) : Table κ α :=
  ⟨bind key value table.entries⟩

/-- Removes every binding of a key. -/
def erase (table : Table κ α) (key : κ) : Table κ α :=
  ⟨table.entries.filter fun entry => entry.1 ≠ key⟩

/-- The number of bindings. -/
def size (table : Table κ α) : Nat :=
  table.entries.length

/-- The value bound to a key, or `default` if there is none. -/
def getD (table : Table κ α) (key : κ) (default : α) : α :=
  (table.get? key).getD default

/-- Binds a key unless it is bound already. -/
def setNew (table : Table κ α) (key : κ) (value : α) : Table κ α :=
  if (table.get? key).isSome then table else table.set key value

/-- The empty table binds nothing. -/
@[simp]
theorem get?_empty (key : κ) : (empty : Table κ α).get? key = none := rfl

/-- A key that was just bound has its new value, every other key the value it had. -/
theorem get?_set (table : Table κ α) (key other : κ) (value : α) :
    (table.set key value).get? other = if key = other then some value else table.get? other := by
  obtain ⟨entries⟩ := table
  simp only [get?, set]
  induction entries with
  | nil => simp [bind, find?]
  | cons entry rest ih =>
    obtain ⟨k, a⟩ := entry
    by_cases hk : k = key
    · subst hk
      by_cases ho : k = other <;> simp [bind, find?, ho]
    · by_cases ho : k = other
      · subst ho
        simp [bind, find?, hk, Ne.symm hk]
      · simp [bind, find?, hk, ho, ih]

/-- A removed key has no value, every other key the value it had. -/
theorem get?_erase (table : Table κ α) (key other : κ) :
    (table.erase key).get? other = if key = other then none else table.get? other := by
  obtain ⟨entries⟩ := table
  simp only [get?, erase]
  induction entries with
  | nil => simp [find?]
  | cons entry rest ih =>
    obtain ⟨k, a⟩ := entry
    by_cases hk : k = key
    · subst hk
      by_cases ho : k = other
      · simpa [ho] using ih
      · simpa [find?, ho] using ih
    · by_cases ho : k = other
      · subst ho
        simp [find?, hk, Ne.symm hk]
      · simpa [find?, hk, ho] using ih

end Table

end DocTree
