import Mathlib.Control.Monad.Basic
import DocTree.Proofs.Engine.Atomicity
import DocTree.Proofs.Engine.Firing
import DocTree.Proofs.Engine.Locks
import DocTree.Proofs.Store.Hierarchy

/-!
# What locks protect

The check before a mutation looks at locks on paths, while the mutation acts on whatever documents
there are when the hooks of the first phase are done. Since the hierarchy is kept throughout, a copy
or a move finds nothing at its destination, so whatever document a mutation removes, moves away or
overwrites is at a path that the check has looked at.

Documents that appear are a different matter. Creating, copying and moving a single document is
checked at the place where the document appears. Copying and moving a collection is not.

## Main definitions

* `Tree.Displaces`: a mutation removes, moves away or overwrites a document.
* `Tree.Appears`: there is a document where there was none.
* `Environment.beforeStore`: the session right before the store applies a mutation.

## Main results

* `Environment.perform_spares_locked`: no document that somebody else has locked is displaced, and a
  mutation that meets with such a lock has no effect.
* `Environment.appears_locked_iff`: which documents appear at paths that somebody else has locked.
-/

namespace DocTree

variable {L : HookLanguage} {σ : Type}

/-! ### Documents that mutations act on -/

namespace Tree

variable {tree : Tree} {path : Path} {mutation : Mutation} {writes : List Write}

/-- There is a document at the path, and the mutation writes there: it removes the document, moves
it away or overwrites it. -/
def Displaces (tree : Tree) (mutation : Mutation) (path : Path) : Prop :=
  (tree.document? path).isSome ∧
    ∃ writes, tree.writes mutation = .ok writes ∧ path ∈ writes.map Prod.fst

/-- There is a document at the path where there was none. -/
def Appears (before after : Tree) (path : Path) : Prop :=
  before.document? path = none ∧ (after.document? path).isSome

theorem document?_congr {other : Tree} (h : other.get? path = tree.get? path) :
    other.document? path = tree.document? path := by
  rw [document?, document?, h]

theorem isSome_document?_iff :
    (tree.document? path).isSome ↔ ∃ content, tree.get? path = some (.document content) := by
  unfold document?
  split
  next content hget => simp [hget]
  next hno =>
    refine iff_of_false (by simp) fun hsome => ?_
    obtain ⟨content, hget⟩ := hsome
    exact hno content hget

theorem document?_eq_none_iff :
    tree.document? path = none ↔ ∀ content, tree.get? path ≠ some (.document content) := by
  rw [← Option.not_isSome_iff_eq_none, isSome_document?_iff, not_exists]

theorem startsWith_of_mem_map_copyWrites {source destination : Path}
    (h : path ∈ (tree.copyWrites source destination).map Prod.fst) :
    path.startsWith destination := by
  obtain ⟨entry, hentry, rfl⟩ := List.mem_map.1 h
  exact startsWith_of_mem_copyWrites hentry

theorem startsWith_of_mem_map_clearWrites {root : Path}
    (h : path ∈ (tree.clearWrites root).map Prod.fst) : path.startsWith root := by
  obtain ⟨entry, hentry, rfl⟩ := List.mem_map.1 h
  exact startsWith_of_mem_clearWrites hentry

/-- Locks stand in the way of a mutation wherever it would displace a document. -/
theorem ParentClosed.guards_of_displaces (h : tree.ParentClosed)
    (hdisplaces : tree.Displaces mutation path) : mutation.Guards path := by
  obtain ⟨hdocument, writes, hwrites, hmem⟩ := hdisplaces
  obtain ⟨content, hget⟩ := isSome_document?_iff.1 hdocument
  -- A copy finds nothing at its destination.
  have hcopied : ∀ {source destination}, tree.IsFree destination →
      path ∉ (tree.copyWrites source destination).map Prod.fst := by
    intro source destination hfree hmem
    rw [h.get?_below_vacant hfree.vacant (startsWith_of_mem_map_copyWrites hmem)] at hget
    cases hget
  cases writes_eq_ok_iff.1 hwrites with
  | createCollection hfree =>
    obtain rfl := List.mem_singleton.1 hmem
    rw [hfree.vacant] at hget
    cases hget
  | updateCollection hstored =>
    obtain rfl := List.mem_singleton.1 hmem
    rw [hstored] at hget
    cases hget
  | copyCollection _ _ hfree => exact absurd hmem (hcopied hfree)
  | moveCollection _ _ hfree =>
    rw [List.map_append, List.mem_append] at hmem
    exact startsWith_of_mem_map_clearWrites (hmem.resolve_left (hcopied hfree))
  | deleteCollection => exact startsWith_of_mem_map_clearWrites hmem
  | createDocument | updateDocument | copyDocument | deleteDocument =>
    exact List.mem_singleton.1 hmem
  | moveDocument =>
    rcases List.mem_cons.1 hmem with hdestination | hsource
    · exact .inr hdestination
    · exact .inl (List.mem_singleton.1 hsource)

/-- The documents that a copy of a collection makes appear have their origin in the collection. -/
theorem appears_copyWrites_iff {source destination : Path} :
    tree.Appears (tree.applyWrites (tree.copyWrites source destination)).1 path ↔
      tree.document? path = none ∧ ∃ origin, origin.relocate? source destination = some path ∧
        (tree.document? origin).isSome := by
  unfold Appears
  refine and_congr_right fun hnone => ?_
  rw [isSome_document?_iff, get?_applyWrites_copyWrites]
  constructor
  · rintro ⟨content, hget⟩
    cases hcopied : (path.relocate? destination source).bind tree.get? with
    | none =>
      -- Nothing was copied to the path, so the document was there before.
      rw [hcopied, Option.none_or] at hget
      exact absurd hget (document?_eq_none_iff.1 hnone content)
    | some resource =>
      rw [hcopied, Option.some_or] at hget
      cases hget
      obtain ⟨origin, hmoved, hstored⟩ := Option.bind_eq_some_iff.1 hcopied
      exact ⟨origin, Path.relocate?_comm.1 hmoved, isSome_document?_iff.2 ⟨content, hstored⟩⟩
  · rintro ⟨origin, hmoved, hdocument⟩
    obtain ⟨content, hstored⟩ := isSome_document?_iff.1 hdocument
    refine ⟨content, ?_⟩
    rw [Path.relocate?_comm.1 hmoved, Option.bind_some, hstored, Option.some_or]

/-- Outside of the collection that is moved away, moving is copying. -/
theorem appears_moveWrites_iff {source destination : Path} (houtside : ¬path.startsWith source) :
    tree.Appears
        (tree.applyWrites (tree.copyWrites source destination ++ tree.clearWrites source)).1 path ↔
      tree.Appears (tree.applyWrites (tree.copyWrites source destination)).1 path := by
  have hsame := tree.get?_applyWrites_clearWrites
    (tree.applyWrites (tree.copyWrites source destination)).1 source path
  rw [if_neg fun hboth => houtside hboth.1] at hsame
  rw [Appears, Appears, fst_applyWrites_append, document?_congr hsame]

/-- Where no lock stands in the way of a mutation, the only documents to appear are those of a
collection that is copied or moved. -/
theorem appears_iff_of_not_guards (hwrites : tree.writes mutation = .ok writes)
    (hfree : ¬mutation.Guards path) :
    tree.Appears (tree.applyWrites writes).1 path ↔
      tree.document? path = none ∧ ∃ source destination origin,
        (mutation = .copyCollection source destination ∨
          mutation = .moveCollection source destination) ∧
        origin.relocate? source destination = some path ∧ (tree.document? origin).isSome := by
  have hsource : ∀ {source destination}, mutation = .moveCollection source destination →
      ¬path.startsWith source := by
    rintro source destination rfl hbelow
    exact hfree hbelow
  constructor
  · rintro ⟨hnone, hsome⟩
    -- A path that is not written keeps its document.
    have hmem : path ∈ writes.map Prod.fst := by
      refine Classical.byContradiction fun hmem => ?_
      rw [document?_congr (tree.get?_applyWrites_of_notMem hmem), hnone] at hsome
      cases hsome
    have hcollection : ∀ {target : Path}, writes ≠ [(target, some .collection)] := by
      rintro target rfl
      obtain rfl : path = target := List.mem_singleton.1 hmem
      obtain ⟨content, hget⟩ := isSome_document?_iff.1 hsome
      have hwritten : (tree.write path (some .collection)).get? path = some (.document content) :=
        hget
      rw [get?_write, if_pos rfl] at hwritten
      cases hwritten
    cases writes_eq_ok_iff.1 hwrites with
    | createCollection => exact absurd rfl hcollection
    | updateCollection => exact absurd rfl hcollection
    | copyCollection =>
      obtain ⟨-, origin, hmoved, hdocument⟩ := appears_copyWrites_iff.1 ⟨hnone, hsome⟩
      exact ⟨hnone, _, _, origin, .inl rfl, hmoved, hdocument⟩
    | moveCollection =>
      have hcopied := (appears_moveWrites_iff (hsource rfl)).1 ⟨hnone, hsome⟩
      obtain ⟨-, origin, hmoved, hdocument⟩ := appears_copyWrites_iff.1 hcopied
      exact ⟨hnone, _, _, origin, .inr rfl, hmoved, hdocument⟩
    | deleteCollection => exact absurd (startsWith_of_mem_map_clearWrites hmem) hfree
    | createDocument | updateDocument | copyDocument | deleteDocument =>
      exact absurd (List.mem_singleton.1 hmem) hfree
    | moveDocument =>
      rcases List.mem_cons.1 hmem with hdestination | hsource
      · exact absurd (.inr hdestination) hfree
      · exact absurd (.inl (List.mem_singleton.1 hsource)) hfree
  · rintro ⟨hnone, source, destination, origin, htransfer, hmoved, hdocument⟩
    have hcopied := appears_copyWrites_iff.2 ⟨hnone, origin, hmoved, hdocument⟩
    rcases htransfer with rfl | rfl
    · cases writes_eq_ok_iff.1 hwrites
      exact hcopied
    · cases writes_eq_ok_iff.1 hwrites
      exact (appears_moveWrites_iff (hsource rfl)).2 hcopied

end Tree

/-! ### The hierarchy, seen by the hooks -/

/-- Seeing to the configuration root keeps the hierarchy. -/
theorem Resolver.parentClosed_ensureRoot (settings : Settings) (resolver : Resolver)
    {store : Store} (h : store.tree.ParentClosed) :
    (resolver.ensureRoot settings store).2.2.tree.ParentClosed := by
  have hkept : Store.KeptByPerform store.beginTransaction.1 fun store =>
      store.tree.ParentClosed := by
    intro store mutation after hclosed hperform
    obtain ⟨log, writes, -, hwrites, rfl⟩ := Store.perform_eq_ok_iff.1 hperform
    exact hclosed.applyWrites (Tree.writes_eq_ok_iff.1 hwrites)
  have hcreated : (createCollections store.beginTransaction.1 store.beginTransaction.2
      (missingLevels settings store)).2.tree.ParentClosed :=
    createCollections_invariant hkept _ h
  have hundone := createCollections_invariant
    (Store.keptByPerform_undoesTo store.tree store.beginTransaction.1)
    (missingLevels settings store) store.undoesTo_beginTransaction
  have hensures := ensuresRoot_ensureRoot settings resolver store
  generalize resolver.ensureRoot settings store = ensured at hensures ⊢
  cases hensures with
  | ready => exact h
  | present => exact h
  | created _ _ hafter =>
    rw [hafter] at hcreated
    exact hcreated
  | refused _ _ hafter hlog =>
    -- What was created is taken back.
    rw [hafter] at hundone
    obtain ⟨log, hfound, htree⟩ := hundone
    rw [hlog] at hfound
    cases hfound
    show (Tree.undo _ _).ParentClosed
    rw [htree]
    exact h

namespace Environment

variable {env : Environment L σ} {host : Host σ} {transaction : TransactionId}
  {mutation : Mutation} {session : Session σ} {principal : Principal}

/-- The session right before the store applies a mutation: the locks were checked, and the hooks of
the first phase have run. -/
def beforeStore (env : Environment L σ) (transaction : TransactionId) (mutation : Mutation)
    (session : Session σ) : Session σ :=
  (env.runBefore env.performNested (.of transaction mutation)
    (session.checkLocks env.settings mutation).2).2

/-- Nothing done for the hooks of a transaction breaks the hierarchy. -/
theorem parentClosedInvariant
    (hhost : ∀ mutation session, session.database.store.tree.ParentClosed →
      (host transaction mutation session).2.database.store.tree.ParentClosed) :
    env.DatabaseInvariant host transaction fun database =>
      database.store.tree.ParentClosed where
  host := hhost
  resolve database collection h := by
    show (database.resolver.resolve env.settings database.store collection).2.2.tree.ParentClosed
    rw [Resolver.store_resolve]
    exact Resolver.parentClosed_ensureRoot _ _ h
  failures _ _ h := h

theorem parentClosed_performWith (hkeeps : env.evaluator.KeepsDatabase)
    (hhost : ∀ mutation session, session.database.store.tree.ParentClosed →
      (host transaction mutation session).2.database.store.tree.ParentClosed)
    (mutation : Mutation) (session : Session σ)
    (h : session.database.store.tree.ParentClosed) :
    (env.performWith host transaction mutation session).2.database.store.tree.ParentClosed := by
  have hinv : env.DatabaseInvariant host transaction fun database =>
      database.store.tree.ParentClosed := parentClosedInvariant hhost
  refine hinv.performWith hinv hkeeps (fun _ _ hclosed => hclosed)
    (fun _ _ _ _ hclosed hstore => ?_) (fun ran hclosed => ?_) h
  · obtain ⟨log, writes, -, hwrites, rfl⟩ := Store.perform_eq_ok_iff.1 hstore
    exact hclosed.applyWrites (Tree.writes_eq_ok_iff.1 hwrites)
  · rw [Session.store_dropConfig]
    exact hclosed

theorem parentClosed_beforeStore (hkeeps : env.evaluator.KeepsDatabase)
    (transaction : TransactionId) (mutation : Mutation)
    (h : session.database.store.tree.ParentClosed) :
    (env.beforeStore transaction mutation session).database.store.tree.ParentClosed := by
  have hinv : env.DatabaseInvariant env.performNested transaction fun database =>
      database.store.tree.ParentClosed :=
    parentClosedInvariant (parentClosed_performWith hkeeps fun _ _ hclosed => hclosed)
  refine hinv.runBefore (.of transaction mutation) hkeeps _ ?_
  cases hcheck : session.checkLocks env.settings mutation with
  | mk result checked =>
    obtain ⟨locks, rfl⟩ := Session.eq_of_checkLocks hcheck
    exact h

/-! ### Tokens stay where they belong -/

/-- Performing a mutation keeps every token under the document that it locks. -/
theorem filed_perform (hkeeps : env.evaluator.KeepsDatabase) (transaction : TransactionId)
    (mutation : Mutation) (session : Session σ) (h : session.database.locks.Filed) :
    (env.perform transaction mutation session).2.database.locks.Filed := by
  refine perform_induction (K := fun host => ∀ mutation session, session.database.locks.Filed →
      (host transaction mutation session).2.database.locks.Filed)
    (fun _ _ hfiled => hfiled) (fun host hhost mutation session h => ?_) mutation session h
  have hinv : env.DatabaseInvariant host transaction fun database => database.locks.Filed :=
    ⟨hhost, fun _ _ hfiled => hfiled, fun _ _ hfiled => hfiled⟩
  refine hinv.performWith_of_checked hinv hkeeps (fun result checked hcheck => ?_)
    (fun _ _ _ _ hfiled _ => hfiled) (fun ran hfiled => ?_)
  · obtain ⟨locks, rfl, hevicts⟩ := Session.evicts_of_checkLocks hcheck
    exact hevicts.filed h
  · rw [Session.locks_dropConfig]
    exact hfiled.releaseFor mutation

/-! ### How the check decides -/

/-- A mutation succeeds only if its locks are free and the store applies it. -/
theorem exists_store_of_ok (h : (env.perform transaction mutation session).1 = .ok ()) :
    (session.checkLocks env.settings mutation).1 = .ok () ∧
      ∃ store, (env.beforeStore transaction mutation session).database.store.perform transaction
        mutation = .ok store := by
  have hperforms := env.performs_performWith env.performNested transaction mutation session
  rw [perform] at h
  rw [h] at hperforms
  generalize (env.performWith env.performNested transaction mutation session).2 = after
    at hperforms
  cases hperforms with
  | applied hlocks hbefore hstore =>
    rw [beforeStore, hlocks, hbefore]
    exact ⟨rfl, _, hstore⟩

/-- A mutation that meets with a lock ends with the check. -/
theorem perform_of_locked {path : Path} {owner : Principal}
    (h : (env.perform transaction mutation session).1 = .error (.locked path owner)) :
    session.checkLocks env.settings mutation = env.perform transaction mutation session := by
  have hperforms := env.performs_performWith env.performNested transaction mutation session
  rw [perform] at h ⊢
  rw [h] at hperforms
  generalize hafter : (env.performWith env.performNested transaction mutation session).2 = after
    at hperforms
  cases hperforms with
  | locked hlocks => rw [hlocks, ← h, ← hafter]

/-- On a path where locks stand in the way, a mutation succeeds only if whoever holds the lock is
the one that asks for the mutation. -/
theorem owner_of_ok (henforced : env.settings.enforceLocks = true)
    (hprincipal : session.context.principal = some principal)
    (hfiled : session.database.locks.Filed)
    (hok : (env.perform transaction mutation session).1 = .ok ()) {path : Path}
    {token : LockToken} (hguards : mutation.Guards path)
    (hheld : session.database.locks.live? session.database.now path = some token) :
    token.owner = principal := by
  have hchecks := Session.checks_checkLocks henforced hprincipal hfiled mutation
  have hclear := (exists_store_of_ok hok).1
  generalize session.checkLocks env.settings mutation = response at hchecks hclear
  cases hchecks with
  | clear _ hfree => exact hfree path token hguards hheld
  | blocked => cases hclear

/-! ### A database with locks -/

/-- A collection of drafts. -/
def drafts : Path :=
  topLevel "drafts"

/-- Where the drafts are to be copied. -/
def copies : Path :=
  topLevel "copies"

/-- A document in a collection. -/
def fileIn (collection : Path) (name : String) : Path :=
  (collection.child? name.toList).getD .root

/-- A session of bob's in which there are two drafts. One of them is locked by alice and the other
one by bob; alice has locked the place of a copy as well, which is not there yet. -/
def sharedDrafts : Session Unit :=
  let env := copying
  let session : Session Unit := ⟨.initial .default, (), .ofPrincipal ⟨"bob"⟩⟩
  let (transaction, session) := session.beginTransaction
  let (_, session) := env.perform transaction (.createCollection drafts) session
  let (_, session) := env.perform transaction (.createDocument (fileIn drafts "a") ⟨#[1]⟩) session
  let (_, session) := env.perform transaction (.createDocument (fileIn drafts "b") ⟨#[2]⟩) session
  let policy := Settings.default.lockPolicy .all
  let locks := (LockTable.lock policy .empty .epoch "first" (fileIn drafts "a") ⟨"alice"⟩ none).2
  let locks := (locks.lock policy .epoch "second" (fileIn drafts "b") ⟨"bob"⟩ none).2
  let locks := (locks.lock policy .epoch "third" (fileIn copies "a") ⟨"alice"⟩ none).2
  { session with database := { session.database with locks } }

/-- Somebody else than bob has locked the place of the copy. -/
theorem exists_foreign_token : ∃ token,
    sharedDrafts.database.locks.live? sharedDrafts.database.now (fileIn copies "a") = some token ∧
      token.owner ≠ ⟨"bob"⟩ := by
  have hheld : (sharedDrafts.database.locks.live? sharedDrafts.database.now
      (fileIn copies "a")).any (fun token => token.owner ≠ ⟨"bob"⟩) = true := by
    decide +kernel
  simpa [Option.any_eq_true] using hheld

/-- A mutation requested for a principal displaces no document on which somebody else holds a live
lock when the locks are checked, whatever the hooks of its first phase change. One that meets with
such a lock names it, fires no hook and changes nothing but that expired tokens may be gone. Both
hold for the mutations of hooks as well, since these are performed as all others. -/
theorem perform_spares_locked (hkeeps : env.evaluator.KeepsDatabase)
    (henforced : env.settings.enforceLocks = true)
    (hprincipal : session.context.principal = some principal)
    (hfiled : session.database.locks.Filed)
    (hclosed : session.database.store.tree.ParentClosed) (transaction : TransactionId)
    (mutation : Mutation) :
    ((env.perform transaction mutation session).1 = .ok () →
      (∃ store, (env.beforeStore transaction mutation session).database.store.perform transaction
        mutation = .ok store) ∧
      ∀ path token,
        (env.beforeStore transaction mutation session).database.store.tree.Displaces mutation path →
        session.database.locks.live? session.database.now path = some token →
        token.owner = principal) ∧
    ∀ path owner, (env.perform transaction mutation session).1 = .error (.locked path owner) →
      (∃ token, session.database.locks.live? session.database.now path = some token ∧
        token.owner = owner ∧ owner ≠ principal) ∧
      mutation.Touches path ∧
      env.performLog transaction mutation session = [] ∧
      ∃ locks, (env.perform transaction mutation session).2 =
          { session with database := { session.database with locks } } ∧
        ∀ other, locks.live? session.database.now other =
          session.database.locks.live? session.database.now other := by
  refine ⟨fun hok => ⟨(exists_store_of_ok hok).2, fun path token hdisplaces hheld => ?_⟩,
    fun path owner hlocked => ?_⟩
  · -- The hierarchy is still intact when the store applies the mutation.
    have hbefore := parentClosed_beforeStore hkeeps transaction mutation hclosed
    exact owner_of_ok henforced hprincipal hfiled hok (hbefore.guards_of_displaces hdisplaces) hheld
  · have hperform := perform_of_locked hlocked
    have hlog : env.performLog transaction mutation session = [] :=
      performLog_of_locked transaction ((congrArg Prod.fst hperform).trans hlocked)
    have hchecks := Session.checks_checkLocks henforced hprincipal hfiled mutation
    rw [hperform] at hchecks
    generalize env.perform transaction mutation session = response at hchecks hlocked ⊢
    cases hchecks with
    | clear => cases hlocked
    | @blocked locks token hevicts hguarded hheld hforeign =>
      cases hlocked
      exact ⟨⟨token, hheld, rfl, hforeign⟩, hguarded.touches, hlog, locks, rfl, hevicts.live?_eq⟩

/-- Bob can change his draft, but he cannot delete the collection of drafts. -/
theorem perform_spares_locked_sharedDrafts :
    copying.evaluator.KeepsDatabase ∧ copying.settings.enforceLocks = true ∧
    sharedDrafts.context.principal = some ⟨"bob"⟩ ∧ sharedDrafts.database.locks.Filed ∧
    sharedDrafts.database.store.tree.ParentClosed ∧
    (copying.perform 1 (.updateDocument (fileIn drafts "b") ⟨#[3]⟩) sharedDrafts).1 = .ok () ∧
    (∀ path token,
      (copying.beforeStore 1 (.updateDocument (fileIn drafts "b") ⟨#[3]⟩)
        sharedDrafts).database.store.tree.Displaces
          (.updateDocument (fileIn drafts "b") ⟨#[3]⟩) path →
      sharedDrafts.database.locks.live? sharedDrafts.database.now path = some token →
      token.owner = ⟨"bob"⟩) ∧
    (copying.perform 1 (.deleteCollection drafts) sharedDrafts).1 =
      .error (.locked (fileIn drafts "a") ⟨"alice"⟩) ∧
    copying.performLog 1 (.deleteCollection drafts) sharedDrafts = [] := by
  have hkeeps := copying.evaluator.keepsDatabase_of_mutationsOnly
  have hprincipal : sharedDrafts.context.principal = some ⟨"bob"⟩ := by decide +kernel
  have hfiled : sharedDrafts.database.locks.Filed := by decide +kernel
  have hclosed : sharedDrafts.database.store.tree.ParentClosed := by decide +kernel
  have hupdated :
      (copying.perform 1 (.updateDocument (fileIn drafts "b") ⟨#[3]⟩) sharedDrafts).1 = .ok () := by
    decide +kernel
  have hlocked : (copying.perform 1 (.deleteCollection drafts) sharedDrafts).1 =
      .error (.locked (fileIn drafts "a") ⟨"alice"⟩) := by
    decide +kernel
  have hspared := @perform_spares_locked _ _ copying _ _ hkeeps rfl hprincipal hfiled hclosed 1
  exact ⟨hkeeps, rfl, hprincipal, hfiled, hclosed, hupdated, ((hspared _).1 hupdated).2, hlocked,
    ((hspared _).2 _ _ hlocked).2.2.1⟩

/-- When a mutation requested for a principal succeeds, a document appears at a path on which
somebody else holds a live lock exactly if it belongs to a collection that is copied or moved:
neither copying nor moving a collection looks at the locks below its destination. -/
theorem appears_locked_iff (henforced : env.settings.enforceLocks = true)
    (hprincipal : session.context.principal = some principal)
    (hfiled : session.database.locks.Filed)
    (hok : (env.perform transaction mutation session).1 = .ok ()) :
    let told := (env.beforeStore transaction mutation session).database.store
    ∃ store, told.perform transaction mutation = .ok store ∧
      ∀ path token, session.database.locks.live? session.database.now path = some token →
        token.owner ≠ principal →
        (told.tree.Appears store.tree path ↔
          told.tree.document? path = none ∧ ∃ source destination origin,
            (mutation = .copyCollection source destination ∨
              mutation = .moveCollection source destination) ∧
            origin.relocate? source destination = some path ∧
            (told.tree.document? origin).isSome) := by
  intro told
  obtain ⟨store, hstore⟩ := (exists_store_of_ok hok).2
  refine ⟨store, hstore, fun path token hheld hforeign => ?_⟩
  obtain ⟨log, writes, -, hwrites, rfl⟩ := Store.perform_eq_ok_iff.1 hstore
  exact Tree.appears_iff_of_not_guards hwrites fun hguards =>
    hforeign (owner_of_ok henforced hprincipal hfiled hok hguards hheld)

/-- Bob's copy of the draft that alice has locked appears at the place that she has locked. -/
theorem appears_locked_sharedDrafts :
    copying.settings.enforceLocks = true ∧ sharedDrafts.context.principal = some ⟨"bob"⟩ ∧
    sharedDrafts.database.locks.Filed ∧
    (copying.perform 1 (.copyCollection drafts copies) sharedDrafts).1 = .ok () ∧
    ∃ store, (copying.beforeStore 1 (.copyCollection drafts copies)
        sharedDrafts).database.store.perform 1 (.copyCollection drafts copies) = .ok store ∧
      (copying.beforeStore 1 (.copyCollection drafts copies)
        sharedDrafts).database.store.tree.Appears store.tree (fileIn copies "a") := by
  have hprincipal : sharedDrafts.context.principal = some ⟨"bob"⟩ := by decide +kernel
  have hfiled : sharedDrafts.database.locks.Filed := by decide +kernel
  have hok : (copying.perform 1 (.copyCollection drafts copies) sharedDrafts).1 = .ok () := by
    decide +kernel
  obtain ⟨store, hstore, happears⟩ := appears_locked_iff rfl hprincipal hfiled hok
  obtain ⟨token, htoken, hforeign⟩ := exists_foreign_token
  refine ⟨rfl, hprincipal, hfiled, hok, store, hstore,
    (happears _ token htoken hforeign).2
      ⟨by decide +kernel, drafts, copies, fileIn drafts "a", .inl rfl, by decide +kernel,
        by decide +kernel⟩⟩

/-- Documents can appear at paths that somebody else has locked. -/
theorem not_appears_unlocked :
    ¬∀ (session : Session Unit) principal transaction mutation,
      copying.settings.enforceLocks = true → session.context.principal = some principal →
      session.database.locks.Filed →
      (copying.perform transaction mutation session).1 = .ok () →
      ∀ store path token,
        (copying.beforeStore transaction mutation session).database.store.perform transaction
          mutation = .ok store →
        (copying.beforeStore transaction mutation session).database.store.tree.Appears store.tree
          path →
        session.database.locks.live? session.database.now path = some token →
        token.owner = principal := by
  intro h
  have hok : (copying.perform 1 (.copyCollection drafts copies) sharedDrafts).1 = .ok () := by
    decide +kernel
  obtain ⟨store, hstore⟩ := (exists_store_of_ok hok).2
  obtain ⟨log, writes, -, hwrites, hafter⟩ := Store.perform_eq_ok_iff.1 hstore
  -- The copy of the draft is one of the documents of the collection that is copied.
  have hfree : ¬(Mutation.copyCollection drafts copies).Guards (fileIn copies "a") := id
  have happears := (Tree.appears_iff_of_not_guards hwrites hfree).2
    ⟨by decide +kernel, drafts, copies, fileIn drafts "a", .inl rfl, by decide +kernel,
      by decide +kernel⟩
  obtain ⟨token, htoken, hforeign⟩ := exists_foreign_token
  have howner := h sharedDrafts ⟨"bob"⟩ 1 (.copyCollection drafts copies) rfl (by decide +kernel)
    (by decide +kernel) hok store (fileIn copies "a") token hstore (hafter ▸ happears) htoken
  exact hforeign howner

end Environment

end DocTree
