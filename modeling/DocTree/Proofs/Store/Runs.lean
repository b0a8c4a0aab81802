import Mathlib.Algebra.Group.Nat.Defs
import DocTree.Proofs.Store.Writes

/-!
# Runs of the store

A run is a list of requests that any number of transactions make in any order. A request that is
refused leaves the store as it is. Transactions are numbered in the order in which they are opened;
as long as the numbers do not wrap around, a number stands for one transaction, and a transaction
that has ended stays ended.

## Main definitions

* `Store.Request`: one request to a store, with the answer `Store.respond`.
* `Store.Responds`: the ways in which a request can go.
* `Store.run`: the store after several requests.
* `Store.Ended`: a transaction was committed or aborted.

## Main results

* `Store.responds_respond`: every request goes one of these ways.
* `Store.run_invariant`: what each request keeps holds after a run.
* `Store.Ended.respond_eq`: every request of an ended transaction is refused.
* `Store.ended_run`: an ended transaction stays ended.
-/

namespace DocTree.Store

/-- One request to a store. -/
inductive Request where
  /-- Opens a transaction. -/
  | beginTransaction
  /-- Applies a mutation in a transaction. -/
  | perform (transaction : TransactionId) (mutation : Mutation)
  /-- Makes the changes of a transaction permanent. -/
  | commit (transaction : TransactionId)
  /-- Takes the changes of a transaction back. -/
  | abort (transaction : TransactionId)
  deriving DecidableEq

/-- The store after an operation that may have been refused. -/
def settle (store : Store) : Except StoreError Store → Except StoreError Unit × Store
  | .ok after => (.ok (), after)
  | .error e => (.error e, store)

/-- The answer to a request, and the store after it. -/
def respond (store : Store) : Request → Except StoreError Unit × Store
  | .beginTransaction => (.ok (), store.beginTransaction.2)
  | .perform transaction mutation => store.settle (store.perform transaction mutation)
  | .commit transaction => store.settle (store.commit transaction)
  | .abort transaction => store.settle (store.abort transaction)

/-- The store after several requests, made one after another. -/
def run (store : Store) : List Request → Store
  | [] => store
  | request :: rest => (store.respond request).2.run rest

theorem run_append (store : Store) (front back : List Request) :
    store.run (front ++ back) = (store.run front).run back := by
  induction front generalizing store with
  | nil => rfl
  | cons request rest ih => exact ih (store.respond request).2

/-- A mutation that is not refused has the store that the answer comes with for its result. -/
theorem perform_of_isOk {store : Store} {transaction : TransactionId} {mutation : Mutation}
    (h : (store.perform transaction mutation).isOk) :
    store.perform transaction mutation = .ok (store.respond (.perform transaction mutation)).2 := by
  rw [respond]
  cases hperform : store.perform transaction mutation with
  | ok after => rfl
  | error e =>
    rw [hperform] at h
    cases h

/-- A path directly below the root collection. -/
def topLevel (name : Char) : Path :=
  (Path.root.child? [name]).getD .root

/-! ### The ways a request can go -/

/-- The ways in which a request can go. -/
inductive Responds (store : Store) : Request → Except StoreError Unit → Store → Prop where
  | opened : Responds store .beginTransaction (.ok ()) store.beginTransaction.2
  | refused {request : Request} {error : StoreError}
      (hrefused : (store.respond request).1 = .error error) :
      Responds store request (.error error) store
  | performed {transaction : TransactionId} {mutation : Mutation} {log : TransactionLog}
      {writes : List Write} (hlog : store.requireActive transaction = .ok log)
      (hwrites : store.tree.writes mutation = .ok writes) :
      Responds store (.perform transaction mutation) (.ok ())
        (store.applied transaction mutation log writes)
  | committed {transaction : TransactionId} {log : TransactionLog}
      (hlog : store.requireActive transaction = .ok log) :
      Responds store (.commit transaction) (.ok ())
        { store with transactions := store.transactions.set transaction ⟨.committed, []⟩ }
  | aborted {transaction : TransactionId} {log : TransactionLog}
      (hlog : store.requireActive transaction = .ok log) :
      Responds store (.abort transaction) (.ok ())
        { store with
          tree := store.tree.undo log.replaced
          transactions := store.transactions.set transaction ⟨.aborted, []⟩ }

/-- Every request goes one of these ways. -/
theorem responds_respond (store : Store) (request : Request) :
    store.Responds request (store.respond request).1 (store.respond request).2 := by
  cases request with
  | beginTransaction => exact .opened
  | perform transaction mutation =>
    cases hperform : store.perform transaction mutation with
    | error e =>
      have hrefused : store.respond (.perform transaction mutation) = (.error e, store) := by
        rw [respond, hperform, settle]
      rw [hrefused]
      exact .refused (congrArg Prod.fst hrefused)
    | ok after =>
      obtain ⟨log, writes, hlog, hwrites, rfl⟩ := perform_eq_ok_iff.1 hperform
      rw [respond, hperform]
      exact .performed hlog hwrites
  | commit transaction =>
    cases hactive : store.requireActive transaction with
    | error e =>
      have hrefused : store.respond (.commit transaction) = (.error e, store) := by
        rw [respond, commit, hactive]
        rfl
      rw [hrefused]
      exact .refused (congrArg Prod.fst hrefused)
    | ok log =>
      rw [respond, commit_eq_ok hactive]
      exact .committed hactive
  | abort transaction =>
    cases hactive : store.requireActive transaction with
    | error e =>
      have hrefused : store.respond (.abort transaction) = (.error e, store) := by
        rw [respond, abort, hactive]
        rfl
      rw [hrefused]
      exact .refused (congrArg Prod.fst hrefused)
    | ok log =>
      rw [respond, abort_eq_ok hactive]
      exact .aborted hactive

theorem requireActive_eq_error {store : Store} {transaction : TransactionId} {error : StoreError}
    (h : store.requireActive transaction = .error error) :
    error = .transactionNotActive transaction := by
  unfold requireActive at h
  split at h
  · cases h
  · cases h
    rfl

/-- Where one log is bound anew, the logs of the other active transactions are found as before. -/
theorem requireActive_of_set {store after : Store} {transaction other : TransactionId}
    {bound found : TransactionLog}
    (hafter : after.transactions = store.transactions.set transaction bound)
    (h : after.requireActive other = .ok found) :
    (other = transaction ∧ found = bound ∧ bound.status = .active) ∨
      (other ≠ transaction ∧ store.requireActive other = .ok found) := by
  obtain ⟨hget, hactive⟩ := requireActive_eq_ok_iff.1 h
  rw [hafter, Table.get?_set] at hget
  split at hget
  next heq =>
    cases hget
    exact .inl ⟨heq.symm, rfl, hactive⟩
  next hne => exact .inr ⟨Ne.symm hne, requireActive_eq_ok_iff.2 ⟨hget, hactive⟩⟩

/-! ### The numbers of transactions -/

/-- The number of transactions that a run opens. -/
def opened (requests : List Request) : Nat :=
  requests.count .beginTransaction

/-- So many transactions were opened, and they have the numbers from one on. -/
structure Numbered (count : Nat) (store : Store) : Prop where
  /-- The next number follows. -/
  next : store.nextTransaction = UInt64.ofNat (count + 1)
  /-- Every transaction has one of the numbers. -/
  known : ∀ transaction, (store.transactions.get? transaction).isSome → transaction.toNat ≤ count

theorem numbered_initial : Numbered 0 .initial where
  next := rfl
  known _ h := nomatch h

/-- An operation that binds only the log of an active transaction opens none. -/
theorem Numbered.congr {count : Nat} {store after : Store} (h : Numbered count store)
    {transaction : TransactionId} {log bound : TransactionLog}
    (hlog : store.requireActive transaction = .ok log)
    (hnext : after.nextTransaction = store.nextTransaction)
    (htransactions : after.transactions = store.transactions.set transaction bound) :
    Numbered count after where
  next := hnext.trans h.next
  known other hother := by
    rw [htransactions, Table.get?_set] at hother
    split at hother
    next heq =>
      refine h.known other ?_
      rw [← heq, (requireActive_eq_ok_iff.1 hlog).1]
      rfl
    · exact h.known other hother

theorem Numbered.respond {count : Nat} {store : Store} (h : Numbered count store)
    (request : Request) : Numbered (count + opened [request]) (store.respond request).2 := by
  have hresponds := store.responds_respond request
  generalize (store.respond request).1 = answer, (store.respond request).2 = after at hresponds ⊢
  cases hresponds with
  | opened =>
    refine ⟨?_, fun other hother => ?_⟩
    · show store.nextTransaction + 1 = UInt64.ofNat (count + 1 + 1)
      rw [h.next, UInt64.ofNat_add (count + 1) 1]
      rfl
    · show other.toNat ≤ count + 1
      rw [beginTransaction, Table.get?_set] at hother
      split at hother
      next heq =>
        rw [← heq, h.next, UInt64.toNat_ofNat']
        exact Nat.mod_le ..
      next => exact Nat.le_succ_of_le (h.known other hother)
  | refused hrefused =>
    have hother : request ≠ .beginTransaction := by
      rintro rfl
      cases hrefused
    rw [opened, List.count_singleton, if_neg (by simpa using hother)]
    exact h
  | performed hlog => exact h.congr hlog rfl rfl
  | committed hlog => exact h.congr hlog rfl rfl
  | aborted hlog => exact h.congr hlog rfl rfl

theorem numbered_run {count : Nat} {store : Store} (h : Numbered count store)
    (requests : List Request) : Numbered (count + opened requests) (store.run requests) := by
  induction requests generalizing count store with
  | nil => exact h
  | cons request rest ih =>
    have hrest := ih (h.respond request)
    rw [Nat.add_assoc] at hrest
    rwa [opened, ← List.singleton_append, List.count_append]

/-- As long as the numbers do not wrap around, a new transaction gets a number that none has yet. -/
theorem Numbered.get?_nextTransaction {count : Nat} {store : Store} (h : Numbered count store)
    (hcount : count + 1 < 2 ^ 64) : store.transactions.get? store.nextTransaction = none := by
  cases hnext : store.transactions.get? store.nextTransaction with
  | none => rfl
  | some log =>
    have hle := h.known store.nextTransaction (by rw [hnext]; rfl)
    rw [h.next, UInt64.toNat_ofNat', Nat.mod_eq_of_lt hcount] at hle
    omega

/-- What each request keeps, if new transactions get new numbers, holds after every run in which the
numbers do not wrap around. The property may speak of the requests made so far. -/
theorem run_invariant {P : List Request → Store → Prop}
    (hstep : ∀ past store request, P past store →
      (request = .beginTransaction → store.transactions.get? store.nextTransaction = none) →
      P (past ++ [request]) (store.respond request).2)
    (past : List Request) {count : Nat} {store : Store} (hnumbered : Numbered count store)
    (h : P past store) (requests : List Request) (hcount : count + opened requests < 2 ^ 64) :
    P (past ++ requests) (store.run requests) := by
  induction requests generalizing past count store with
  | nil => rwa [List.append_nil]
  | cons request rest ih =>
    rw [opened, ← List.singleton_append, List.count_append, ← Nat.add_assoc] at hcount
    rw [← List.singleton_append, ← List.append_assoc]
    refine ih _ (hnumbered.respond request) (hstep past store request h ?_) hcount
    rintro rfl
    refine hnumbered.get?_nextTransaction (Nat.lt_of_le_of_lt (Nat.le_add_right _ _) hcount)

/-! ### Ended transactions -/

/-- A transaction was committed or aborted. -/
def Ended (transaction : TransactionId) (store : Store) : Prop :=
  ∃ log, store.transactions.get? transaction = some log ∧ log.status ≠ .active

/-- The requests that a transaction makes. -/
inductive Request.IsOf (transaction : TransactionId) : Request → Prop where
  | perform (mutation : Mutation) : IsOf transaction (.perform transaction mutation)
  | commit : IsOf transaction (.commit transaction)
  | abort : IsOf transaction (.abort transaction)

namespace Ended

variable {transaction : TransactionId} {store : Store}

theorem requireActive_eq (h : store.Ended transaction) :
    store.requireActive transaction = .error (.transactionNotActive transaction) := by
  obtain ⟨log, hlog, hstatus⟩ := h
  cases hactive : store.requireActive transaction with
  | error e => rw [requireActive_eq_error hactive]
  | ok found =>
    obtain ⟨hfound, hstill⟩ := requireActive_eq_ok_iff.1 hactive
    rw [hlog, Option.some.injEq] at hfound
    exact absurd (hfound ▸ hstill) hstatus

/-- Every request of an ended transaction is refused and changes nothing. -/
theorem respond_eq (h : store.Ended transaction) {request : Request}
    (hrequest : request.IsOf transaction) :
    store.respond request = (.error (.transactionNotActive transaction), store) := by
  cases hrequest with
  | perform mutation => rw [respond, perform, h.requireActive_eq]; rfl
  | commit => rw [respond, commit, h.requireActive_eq]; rfl
  | abort => rw [respond, abort, h.requireActive_eq]; rfl

/-- An operation that binds only the log of another transaction leaves an ended one ended. -/
theorem congr (h : store.Ended transaction) {other : TransactionId} {log bound : TransactionLog}
    {after : Store} (hlog : store.requireActive other = .ok log)
    (hafter : after.transactions = store.transactions.set other bound) :
    after.Ended transaction := by
  obtain ⟨ended, hended, hstatus⟩ := h
  have hne : other ≠ transaction := by
    rintro rfl
    rw [Ended.requireActive_eq ⟨ended, hended, hstatus⟩] at hlog
    cases hlog
  refine ⟨ended, ?_, hstatus⟩
  rw [hafter, Table.get?_set, if_neg hne, hended]

theorem respond (h : store.Ended transaction) {request : Request}
    (hfresh : request = .beginTransaction →
      store.transactions.get? store.nextTransaction = none) :
    (store.respond request).2.Ended transaction := by
  have hresponds := store.responds_respond request
  generalize (store.respond request).1 = answer, (store.respond request).2 = after at hresponds ⊢
  cases hresponds with
  | opened =>
    -- The new transaction has a number of its own.
    obtain ⟨ended, hended, hstatus⟩ := h
    refine ⟨ended, ?_, hstatus⟩
    rw [beginTransaction, Table.get?_set, if_neg, hended]
    rintro rfl
    rw [hfresh rfl] at hended
    cases hended
  | refused => exact h
  | performed hlog => exact h.congr hlog rfl
  | committed hlog => exact h.congr hlog rfl
  | aborted hlog => exact h.congr hlog rfl

end Ended

/-- As long as the numbers do not wrap around, an ended transaction stays ended. -/
theorem ended_run {transaction : TransactionId} {count : Nat} {store : Store}
    (hnumbered : Numbered count store) (h : store.Ended transaction) (requests : List Request)
    (hcount : count + opened requests < 2 ^ 64) : (store.run requests).Ended transaction :=
  run_invariant (P := fun _ store => store.Ended transaction)
    (fun _ _ _ hended hfresh => hended.respond hfresh) [] hnumbered h requests hcount

end DocTree.Store
