import DocTree.Proofs.Store.History

/-!
# Taking changes back

What an abort does, whatever other transactions have done in between. Every path that the
transaction wrote gets back what it held right before its first write there. If somebody else has
written the path since, this is lost as well: what a transaction has committed stays only as long
as no other transaction had written there before and is aborted later.

## Main definitions

* `Store.TakenBack`: what taking the changes of a transaction back does.
* `Store.lastWriter?`: the transaction that was the last to write a path.

## Main results

* `Store.get?_abort_run`: what a path holds after an abort.
* `Store.abort_run`: an abort takes back the changes of its transaction, and a transaction that was
  committed or aborted stays so.
* `Store.get?_abort_ne_iff`: when an abort changes what a committed transaction was the last to
  write.
-/

namespace DocTree.Store

variable {requests : List Request} {transaction : TransactionId} {after : Store} {path : Path}

/-- Only an active transaction can be aborted. -/
theorem abort_eq_ok_iff {store : Store} :
    store.abort transaction = .ok after ↔
      ∃ log, store.requireActive transaction = .ok log ∧
        after = { store with
          tree := store.tree.undo log.replaced
          transactions := store.transactions.set transaction ⟨.aborted, []⟩ } := by
  rw [abort, bind_eq_ok_iff]
  refine exists_congr fun log => and_congr_right fun _ => ?_
  exact ⟨fun h => (Except.ok.inj h).symm, fun h => h ▸ rfl⟩

theorem abort_of_active {store : Store} (h : store.status? transaction = some .active) :
    store.abort transaction = .ok (store.respond (.abort transaction)).2 := by
  obtain ⟨log, hlog⟩ := status?_eq_active_iff.1 h
  rw [respond, abort_eq_ok hlog]
  rfl

/-! ### What paths hold after an abort -/

/-- After an abort, a path holds what it held right before the first write of the transaction to
it, or what it held before the abort if there was none. -/
theorem get?_abort_run (hopened : opened requests < 2 ^ 64)
    (habort : (initial.run requests).abort transaction = .ok after) (path : Path) :
    after.tree.get? path =
      (initial.tree.replay ((initial.history requests).takeWhile
        fun change => !change.IsOf transaction path)).get? path := by
  obtain ⟨log, hlog, rfl⟩ := abort_eq_ok_iff.1 habort
  have hexplained := explained_run hopened
  rw [hexplained.remembered transaction log hlog, hexplained.tree]
  exact Tree.get?_undo_replacedFor ..

/-! ### The effect of an abort -/

/-- What it means that the changes of a transaction were taken back after several requests. -/
structure TakenBack (requests : List Request) (transaction : TransactionId) (after : Store) :
    Prop where
  /-- A path that it wrote holds what it held right before the first of these writes. -/
  restored : ∀ front first back, initial.history requests = front ++ first :: back →
    first.transaction = transaction →
    (∀ earlier ∈ front, ¬earlier.IsOf transaction first.path) →
    after.tree.get? first.path = (initial.tree.replay front).get? first.path
  /-- A path that it did not write holds what it held. -/
  kept : ∀ path, (∀ change ∈ initial.history requests, ¬change.IsOf transaction path) →
    after.tree.get? path = (initial.run requests).tree.get? path
  /-- If nobody else has written these paths in between, by a mutation or by an abort, then the tree
  is what all changes but those of the transaction lead to. -/
  erased : (∀ front change back, initial.history requests = front ++ change :: back →
      change.transaction = transaction →
      ∀ later ∈ back, later.path = change.path → later.transaction = transaction) →
    after.tree = initial.tree.replay
      ((initial.history requests).filter fun change => change.transaction ≠ transaction)
  /-- The other transactions stand where they stood, and remember the same. -/
  others : ∀ other, other ≠ transaction →
    after.transactions.get? other = (initial.run requests).transactions.get? other
  /-- The journal keeps what was applied. -/
  journal : after.journal = (initial.run requests).journal
  /-- The transaction is aborted. -/
  aborted : after.status? transaction = some .aborted

theorem takenBack_of_abort (hopened : opened requests < 2 ^ 64)
    (habort : (initial.run requests).abort transaction = .ok after) :
    TakenBack requests transaction after where
  restored front first back hhistory htransaction hfront := by
    rw [get?_abort_run hopened habort, hhistory,
      Change.takeWhile_eq_of_first hfront ⟨htransaction, rfl⟩]
  kept path hunwritten := by
    rw [get?_abort_run hopened habort, Change.takeWhile_eq_self hunwritten,
      (explained_run hopened).tree]
  erased halone := by
    refine PathMap.ext_get? fun path => ?_
    rw [get?_abort_run hopened habort]
    refine Tree.get?_replay_filter_transaction _ fun front change back hhistory hchange => ?_
    have hlater := halone front change back hhistory hchange.1
    rwa [hchange.2] at hlater
  others other hother := by
    obtain ⟨log, -, rfl⟩ := abort_eq_ok_iff.1 habort
    exact (Table.get?_set ..).trans (if_neg (Ne.symm hother))
  journal := by
    obtain ⟨log, -, rfl⟩ := abort_eq_ok_iff.1 habort
    rfl
  aborted := by
    obtain ⟨log, -, rfl⟩ := abort_eq_ok_iff.1 habort
    rw [status?, Table.get?_set, if_pos rfl]
    rfl

/-- A commit or an abort that succeeds ends the transaction. -/
theorem ended_of_respond {store : Store} {ending : Request}
    (hending : ending = .commit transaction ∨ ending = .abort transaction)
    (h : (store.respond ending).1 = .ok ()) : (store.respond ending).2.Ended transaction := by
  have hresponds := store.responds_respond ending
  rw [h] at hresponds
  generalize (store.respond ending).2 = after at hresponds ⊢
  rcases hending with rfl | rfl
  · cases hresponds
    exact ⟨⟨.committed, []⟩, by rw [Table.get?_set, if_pos rfl], nofun⟩
  · cases hresponds
    exact ⟨⟨.aborted, []⟩, by rw [Table.get?_set, if_pos rfl], nofun⟩

/-- After every run, an abort that succeeds takes back exactly what its transaction did. Once a
transaction was committed or aborted, all of its requests are refused and change nothing. -/
theorem abort_run (hopened : opened requests < 2 ^ 64) (transaction : TransactionId) :
    (initial.run requests).tree = initial.tree.replay (initial.history requests) ∧
    (∀ after, (initial.run requests).abort transaction = .ok after →
      TakenBack requests transaction after) ∧
    ∀ ending, ending = .commit transaction ∨ ending = .abort transaction →
      ((initial.run requests).respond ending).1 = .ok () →
      ∀ more, opened requests + opened more < 2 ^ 64 →
      ∀ request, request.IsOf transaction →
        (initial.run (requests ++ ending :: more)).respond request =
          (.error (.transactionNotActive transaction),
            initial.run (requests ++ ending :: more)) := by
  refine ⟨(explained_run hopened).tree, fun after habort => takenBack_of_abort hopened habort, ?_⟩
  intro ending hending hok more hmore request hrequest
  have hnumbered : Numbered (opened requests) ((initial.run requests).respond ending).2 := by
    have hafter := (numbered_run numbered_initial requests).respond ending
    have hnone : opened [ending] = 0 := by rcases hending with rfl | rfl <;> rfl
    rwa [hnone, Nat.zero_add, Nat.add_zero] at hafter
  have hended := ended_run hnumbered (ended_of_respond hending hok) more hmore
  rw [run_append, run]
  exact hended.respond_eq hrequest

/-- A run in which two transactions take turns. The first one also changes a document that the
second one has created, and that the second one changes again and commits. -/
def takingTurns : List Request :=
  [.beginTransaction, .beginTransaction,
    .perform 1 (.createCollection (topLevel 'a')),
    .perform 2 (.createDocument (topLevel 'x') ⟨#[1]⟩),
    .perform 1 (.createDocument ((topLevel 'a').append .root) ⟨#[2]⟩),
    .perform 1 (.updateDocument (topLevel 'x') ⟨#[3]⟩),
    .perform 1 (.moveCollection (topLevel 'a') (topLevel 'b')),
    .perform 2 (.updateDocument (topLevel 'x') ⟨#[4]⟩),
    .commit 2,
    .perform 1 (.deleteCollection (topLevel 'b'))]

/-- The first transaction of the run can be aborted. The document gets back its first content, and
from then on the transaction can do nothing more. -/
theorem abort_run_takingTurns :
    opened takingTurns < 2 ^ 64 ∧
    (∃ after, (initial.run takingTurns).abort 1 = .ok after ∧ TakenBack takingTurns 1 after ∧
      after.tree.get? (topLevel 'x') = some (.document ⟨#[1]⟩)) ∧
    (initial.run (takingTurns ++ .abort 1 :: takingTurns)).respond (.commit 1) =
      (.error (.transactionNotActive 1), initial.run (takingTurns ++ .abort 1 :: takingTurns)) := by
  have hopened : opened takingTurns < 2 ^ 64 := by decide
  have habort : (initial.run takingTurns).abort 1 =
      .ok ((initial.run takingTurns).respond (.abort 1)).2 := abort_of_active (by decide +kernel)
  have hok : ((initial.run takingTurns).respond (.abort 1)).1 = .ok () := by
    rw [respond, habort]
    rfl
  obtain ⟨-, htaken, hended⟩ := abort_run hopened 1
  refine ⟨hopened, ⟨_, habort, htaken _ habort, by decide +kernel⟩, ?_⟩
  exact hended (.abort 1) (.inr rfl) hok takingTurns (by decide) _ .commit

/-! ### Commits -/

/-- The transaction that was the last to write a path. -/
def lastWriter? (changes : List Change) (path : Path) : Option TransactionId :=
  (changes.reverse.find? fun change => change.path = path).map Change.transaction

theorem lastWriter?_append (front back : List Change) (path : Path) :
    lastWriter? (front ++ back) path = (lastWriter? back path).or (lastWriter? front path) := by
  rw [lastWriter?, List.reverse_append, List.find?_append, Option.map_or]
  rfl

theorem lastWriter?_cons {first : Change} (hfirst : first.IsOf transaction path)
    (back : List Change) :
    lastWriter? (first :: back) path = (lastWriter? back path).or (some transaction) := by
  have hone : lastWriter? [first] path = some transaction := by
    simp [lastWriter?, hfirst.1, hfirst.2]
  rw [← List.singleton_append, lastWriter?_append, hone]

/-- A path that another transaction was the last to write was written by it after the first write of
this one. -/
theorem lastWriter?_of_first {front back : List Change} {first : Change} {other : TransactionId}
    (hlast : lastWriter? (front ++ first :: back) path = some other)
    (hfirst : first.IsOf transaction path) (hne : transaction ≠ other) :
    lastWriter? back path = some other := by
  rw [lastWriter?_append, lastWriter?_cons hfirst] at hlast
  cases hback : lastWriter? back path with
  | some writer => simpa [hback] using hlast
  | none => exact absurd (by simpa [hback] using hlast) hne

theorem ne_of_abort {store : Store} {committed : TransactionId}
    (hcommitted : store.status? committed = some .committed)
    (habort : store.abort transaction = .ok after) : transaction ≠ committed := by
  rintro rfl
  obtain ⟨log, hlog, -⟩ := abort_eq_ok_iff.1 habort
  have hactive := status?_eq_active_iff.2 ⟨log, hlog⟩
  rw [hcommitted] at hactive
  cases hactive

/-- An abort changes what a committed transaction was the last to write exactly if the aborted
transaction had written the path before, and the path held something else when it did so first. -/
theorem get?_abort_ne_iff {committed : TransactionId} (hopened : opened requests < 2 ^ 64)
    (hcommitted : (initial.run requests).status? committed = some .committed)
    (hlast : lastWriter? (initial.history requests) path = some committed)
    (habort : (initial.run requests).abort transaction = .ok after) :
    after.tree.get? path ≠ (initial.run requests).tree.get? path ↔
      ∃ front first back, initial.history requests = front ++ first :: back ∧
        (∀ earlier ∈ front, ¬earlier.IsOf transaction path) ∧ first.IsOf transaction path ∧
        lastWriter? back path = some committed ∧
        (initial.tree.replay front).get? path ≠ (initial.run requests).tree.get? path := by
  have htaken := takenBack_of_abort hopened habort
  have hne := ne_of_abort hcommitted habort
  constructor
  · intro hchanged
    by_cases hwritten : ∃ change ∈ initial.history requests, change.IsOf transaction path
    · obtain ⟨change, hmem, hchange⟩ := hwritten
      obtain ⟨front, first, back, hhistory, hfront, hfirst⟩ := Change.exists_first hmem hchange
      have hrestored := htaken.restored front first back hhistory hfirst.1
      rw [hfirst.2] at hrestored
      rw [hrestored hfront] at hchanged
      rw [hhistory] at hlast
      exact ⟨front, first, back, hhistory, hfront, hfirst,
        lastWriter?_of_first hlast hfirst hne, hchanged⟩
    · exact absurd (htaken.kept path fun change hmem hchange => hwritten ⟨change, hmem, hchange⟩)
        hchanged
  · rintro ⟨front, first, back, hhistory, hfront, hfirst, -, hother⟩
    have hrestored := htaken.restored front first back hhistory hfirst.1
    rw [hfirst.2] at hrestored
    rwa [hrestored hfront]

/-- A run in which a transaction changes and commits a document that an open one has created. -/
def overwriting : List Request :=
  [.beginTransaction, .beginTransaction,
    .perform 1 (.createDocument (topLevel 'x') ⟨#[1]⟩),
    .perform 2 (.updateDocument (topLevel 'x') ⟨#[2]⟩),
    .commit 2]

/-- Aborting the open transaction clears the committed document: its first write had found the path
vacant. -/
theorem get?_abort_ne_overwriting :
    opened overwriting < 2 ^ 64 ∧
    (initial.run overwriting).status? 2 = some .committed ∧
    lastWriter? (initial.history overwriting) (topLevel 'x') = some 2 ∧
    ∃ after, (initial.run overwriting).abort 1 = .ok after ∧
      after.tree.get? (topLevel 'x') = none ∧
      ∃ front first back, initial.history overwriting = front ++ first :: back ∧
        (∀ earlier ∈ front, ¬earlier.IsOf 1 (topLevel 'x')) ∧ first.IsOf 1 (topLevel 'x') ∧
        lastWriter? back (topLevel 'x') = some 2 ∧
        (initial.tree.replay front).get? (topLevel 'x') ≠
          (initial.run overwriting).tree.get? (topLevel 'x') := by
  have hopened : opened overwriting < 2 ^ 64 := by decide
  have hcommitted : (initial.run overwriting).status? 2 = some .committed := by decide +kernel
  have hlast : lastWriter? (initial.history overwriting) (topLevel 'x') = some 2 := by
    decide +kernel
  have habort : (initial.run overwriting).abort 1 =
      .ok ((initial.run overwriting).respond (.abort 1)).2 := abort_of_active (by decide +kernel)
  exact ⟨hopened, hcommitted, hlast, _, habort, by decide +kernel,
    (get?_abort_ne_iff hopened hcommitted hlast habort).1 (by decide +kernel)⟩

/-- What was committed is not permanent. -/
theorem not_get?_abort_eq :
    ¬∀ requests committed transaction path after, opened requests < 2 ^ 64 →
      (initial.run requests).status? committed = some .committed →
      lastWriter? (initial.history requests) path = some committed →
      transaction ≠ committed →
      (initial.run requests).abort transaction = .ok after →
      after.tree.get? path = (initial.run requests).tree.get? path := by
  intro h
  have hkept := h overwriting 2 1 (topLevel 'x') _ (by decide) (by decide +kernel)
    (by decide +kernel) (by decide) (abort_of_active (by decide +kernel))
  exact absurd hkept (by decide +kernel)

end DocTree.Store
