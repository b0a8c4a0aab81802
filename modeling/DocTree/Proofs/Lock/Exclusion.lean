import DocTree.Proofs.Lock.Calls

/-!
# Exclusive locks

A token that was handed out stays in the table, whatever others call for, until it expires, until
its owner gives it up or has it renewed, or until it is dropped with its document. While it is
there, nobody else can lock the document, renew the token or give it up, and whoever looks the
document up finds the token.

The clock may be read in any order. An earlier reading does not bring an expired token back, but a
token that none of the readings since it was handed out has expired is still there.

## Main definitions

* `LockTable.Call.Disturbs`: a call that renews or ends a token before it expires.
* `LockTable.Excludes`: a token locks its document for everybody but its owner.

## Main results

* `LockTable.get?_respond_of_undisturbed` and `LockTable.get?_run_of_undisturbed`: a call, and a
  run, that does not disturb a token leaves it in place.
* `LockTable.excludes_of_granted`: a token that was handed out excludes others as long as it is not
  disturbed.
-/

namespace DocTree.LockTable

variable {policy : LockPolicy} {table : LockTable} {token : LockToken} {now : Instant}

/-- The calls that renew or end a token before it expires: its owner is granted the lock once more,
has the token renewed or gives it up, or the token is dropped with its document. -/
def Call.Disturbs (policy : LockPolicy) (token : LockToken) : Call → Prop
  | lock _ _ path owner _ =>
    path = token.path ∧ owner = token.owner ∧ policy.permissions.mayWrite owner path = true
  | refresh _ id caller _ | unlock _ id caller => id = token.id ∧ caller = token.owner
  | current _ _ | under _ _ => False
  | release path => path = token.path
  | releaseUnder path => token.path.startsWith path

instance (policy : LockPolicy) (token : LockToken) (call : Call) :
    Decidable (call.Disturbs policy token) :=
  match call with
  | .lock _ _ path owner _ =>
    inferInstanceAs (Decidable (path = token.path ∧ owner = token.owner ∧
      policy.permissions.mayWrite owner path = true))
  | .refresh _ id caller _ | .unlock _ id caller =>
    inferInstanceAs (Decidable (id = token.id ∧ caller = token.owner))
  | .current _ _ | .under _ _ => inferInstanceAs (Decidable False)
  | .release path => inferInstanceAs (Decidable (path = token.path))
  | .releaseUnder path => inferInstanceAs (Decidable (token.path.startsWith path))

/-- The call names what it hands out: the document and the principal that it is locked for, or the
token and its owner. -/
def Call.Obtains (token : LockToken) : Call → Prop
  | lock _ _ path owner _ => token.path = path ∧ token.owner = owner
  | refresh _ id caller _ => token.id = id ∧ token.owner = caller
  | _ => False

/-- A token locks its document for everybody but its owner. -/
structure Excludes (policy : LockPolicy) (table : LockTable) (now : Instant) (token : LockToken) :
    Prop where
  /-- Nobody else can lock the document. -/
  lock : ∀ fresh other requested, other ≠ token.owner →
    (table.lock policy now fresh token.path other requested).1 =
      .error (if policy.permissions.mayWrite other token.path then
        .alreadyLocked token.path token.owner else .mayNotWrite other token.path)
  /-- Nobody else can renew the token. -/
  refresh : ∀ other requested, other ≠ token.owner →
    (table.refresh policy now token.id other requested).1 =
      .error (.notOwner other token.path token.owner)
  /-- Nobody else can give the token up. -/
  unlock : ∀ other, other ≠ token.owner →
    (table.unlock now token.id other).1 = .error (.notOwner other token.path token.owner)
  /-- The token is found on the document. -/
  current : (table.current now token.path).1 = some token
  /-- Among the tokens below a path, it is the only one on the document. -/
  under : ∀ above, token.path.startsWith above →
    (table.under now above).1.filter (·.path = token.path) = [token]

/-! ### What a token in the table rules out -/

/-- Tokens that are picked by the documents they lock are picked by the keys they are kept under. -/
theorem filter_values_of_filed (hfiled : table.Filed) (keep : Path → Bool) :
    table.values.filter (fun token => keep token.path) =
      (table.entries.filter fun entry => keep entry.1).map Prod.snd := by
  rw [PathMap.values, List.filter_map]
  refine congrArg _ (List.filter_congr fun entry hentry => ?_)
  have hfound : table.get? entry.1 = some entry.2 := PathMap.mem_entries_iff.1 hentry
  simp [hfiled _ _ hfound]

/-- A table lists at most one token for each document. -/
theorem filter_values_of_get? (hfiled : table.Filed) {path : Path}
    (hget : table.get? path = some token) :
    table.values.filter (fun other => other.path = path) = [token] := by
  rw [filter_values_of_filed hfiled fun other => other = path, PathMap.filter_entries_of_get? hget]
  rfl

theorem Sound.withId? {issued : List String} (h : table.Sound issued)
    (hget : table.get? token.path = some token) : table.withId? token.id = some token := by
  cases hfound : table.withId? token.id with
  | none =>
    have hno := List.find?_eq_none.1 hfound token (PathMap.mem_values_iff.2 ⟨_, hget⟩)
    simp at hno
  | some found =>
    obtain ⟨hother, hid⟩ := of_withId? hfound h.filed
    rw [eq_of_withId? hfound h.filed hget (h.distinct _ _ _ _ hother hget hid)]

/-- The search for a token on behalf of somebody else ends with its owner's name. -/
theorem Sound.owned_of_ne {issued : List String} (h : table.Sound issued)
    (hheld : table.live? now token.path = some token) {other : Principal}
    (hother : other ≠ token.owner) :
    table.owned now token.id other =
      (.error (.notOwner other token.path token.owner), table) := by
  obtain ⟨hget, hlive⟩ := live?_eq_some_iff.1 hheld
  rw [owned, h.withId? hget]
  simp [hlive, hother.symm]

/-- A live token locks its document for everybody but its owner. -/
theorem Sound.excludes {issued : List String} (h : table.Sound issued) (policy : LockPolicy)
    (hheld : table.live? now token.path = some token) : Excludes policy table now token where
  lock fresh other requested hother := by
    have hlocks := locks_lock policy table now fresh token.path other requested
    generalize table.lock policy now fresh token.path other requested = response at hlocks ⊢
    cases hlocks with
    | refused hmay => simp [hmay]
    | granted _ hfree =>
      rw [hheld] at hfree
      cases hfree
    | renewed _ hfound howner =>
      rw [hheld] at hfound
      cases hfound
      exact absurd howner.symm hother
    | locked hmay hfound =>
      rw [hheld] at hfound
      cases hfound
      simp [hmay]
  refresh other requested hother := by
    rw [LockTable.refresh, h.owned_of_ne hheld hother]
  unlock other hother := by
    rw [LockTable.unlock, h.owned_of_ne hheld hother]
  current := (fst_current ..).trans hheld
  under above habove := by
    have hevicted : (table.evict now).get? token.path = some token :=
      (get?_evict ..).trans hheld
    have hfiled := (table.evicts_evict now).filed h.filed
    rw [LockTable.under, List.filter_filter, ← filter_values_of_get? hfiled hevicted]
    -- What is listed for the document lies below the path with it.
    refine List.filter_congr fun other _ => ?_
    by_cases hpath : other.path = token.path
    · simp [hpath, habove]
    · simp [hpath]

/-! ### What leaves a token in place -/

theorem get?_owned_of_ne (hfiled : table.Filed) {id : String} {caller : Principal}
    (hheld : table.live? now token.path = some token)
    (hundisturbed : ¬(id = token.id ∧ caller = token.owner)) :
    (table.owned now id caller).2.get? token.path = some token ∧
      ∀ other, (table.owned now id caller).1 = .ok other → other.path ≠ token.path := by
  obtain ⟨hget, hlive⟩ := live?_eq_some_iff.1 hheld
  have howns := table.owns_owned now id caller
  generalize table.owned now id caller = response at howns ⊢
  cases howns with
  | unknown => exact ⟨hget, nofun⟩
  | @lapsed other hid hexpired =>
    refine ⟨?_, nofun⟩
    rw [PathMap.get?_erase, if_neg, hget]
    -- The expired token is not the one that is live.
    intro hpath
    rw [eq_of_withId? hid hfiled hget hpath, hlive] at hexpired
    cases hexpired
  | foreign => exact ⟨hget, nofun⟩
  | @own other hid _ howner =>
    refine ⟨hget, fun found hfound hpath => hundisturbed ?_⟩
    cases hfound
    obtain rfl := eq_of_withId? hid hfiled hget hpath
    exact ⟨(of_withId? hid hfiled).2.symm, howner.symm⟩

/-- A call that does not disturb a token leaves it in place, unless the token has expired at the
reading of the clock that the call goes by. -/
theorem get?_respond_of_undisturbed (hfiled : table.Filed) {call : Call}
    (hheld : table.get? token.path = some token)
    (htime : ∀ now, call.reading? = some now → token.isExpired now = false)
    (hundisturbed : ¬call.Disturbs policy token) :
    (table.respond policy call).2.get? token.path = some token := by
  have hlive : ∀ now, call.reading? = some now → table.live? now token.path = some token :=
    fun now hnow => live?_eq_some_iff.2 ⟨hheld, htime now hnow⟩
  -- Expired tokens that an operation drops do not matter.
  have hevicts : ∀ {now after}, call.reading? = some now → Evicts now table after →
      after.get? token.path = some token := by
    intro now after hnow hevicts
    rcases hevicts token.path with hkept | ⟨-, hexpired⟩
    · rw [hkept, hheld]
    · rw [hlive now hnow] at hexpired
      cases hexpired
  cases call with
  | lock now fresh path owner requested =>
    have hlocks := locks_lock policy table now fresh path owner requested
    show (table.lock policy now fresh path owner requested).2.get? token.path = some token
    generalize table.lock policy now fresh path owner requested = response at hlocks ⊢
    cases hlocks with
    | refused => exact hheld
    | granted _ hfree =>
      rw [PathMap.get?_insert, if_neg, hheld]
      rintro rfl
      rw [hlive now rfl] at hfree
      cases hfree
    | renewed hmay hfound howner =>
      rw [PathMap.get?_insert, if_neg, hheld]
      rintro rfl
      rw [hlive now rfl] at hfound
      cases hfound
      exact hundisturbed ⟨rfl, howner.symm, hmay⟩
    | locked => exact hheld
  | refresh now id caller requested =>
    obtain ⟨hkept, hother⟩ := get?_owned_of_ne hfiled (hlive now rfl) hundisturbed
    show (table.refresh policy now id caller requested).2.get? token.path = some token
    unfold refresh
    generalize table.owned now id caller = response at hkept hother ⊢
    obtain ⟨_ | found, table⟩ := response
    · exact hkept
    · exact (PathMap.get?_insert ..).trans ((if_neg (hother found rfl)).trans hkept)
  | unlock now id caller =>
    obtain ⟨hkept, hother⟩ := get?_owned_of_ne hfiled (hlive now rfl) hundisturbed
    show (table.unlock now id caller).2.get? token.path = some token
    unfold unlock
    generalize table.owned now id caller = response at hkept hother ⊢
    obtain ⟨_ | found, table⟩ := response
    · exact hkept
    · exact (PathMap.get?_erase ..).trans ((if_neg (hother found rfl)).trans hkept)
  | current now path => exact hevicts rfl (table.evicts_current now path)
  | under now above => exact hevicts rfl (table.evicts_under now above)
  | release path => exact (PathMap.get?_erase ..).trans ((if_neg hundisturbed).trans hheld)
  | releaseUnder above =>
    exact (get?_releaseUnder ..).trans ((if_neg hundisturbed).trans hheld)

/-- A run that does not disturb a token leaves it in place, unless the token has expired at one of
the readings of the clock that the run goes by. -/
theorem get?_run_of_undisturbed (hfiled : table.Filed) {calls : List Call}
    (hheld : table.get? token.path = some token)
    (htime : ∀ call ∈ calls, ∀ now, call.reading? = some now → token.isExpired now = false)
    (hundisturbed : ∀ call ∈ calls, ¬call.Disturbs policy token) :
    (table.run policy calls).get? token.path = some token := by
  induction calls generalizing table with
  | nil => exact hheld
  | cons call rest ih =>
    rw [List.forall_mem_cons] at htime hundisturbed
    have hkept := get?_respond_of_undisturbed hfiled hheld htime.1 hundisturbed.1
    exact ih (filed_respond policy hfiled call) hkept htime.2 hundisturbed.2

/-- A token that is handed out is kept under the document that was asked for. -/
theorem get?_of_granted (hfiled : table.Filed) {call : Call}
    (h : (table.respond policy call).1 = .granted (.ok token)) :
    call.Obtains token ∧ (table.respond policy call).2.get? token.path = some token := by
  cases call with
  | lock now fresh path owner requested =>
    have hresult : (table.lock policy now fresh path owner requested).1 = .ok token :=
      Answer.granted.inj h
    have hlocks := locks_lock policy table now fresh path owner requested
    show _ ∧ (table.lock policy now fresh path owner requested).2.get? token.path = some token
    generalize table.lock policy now fresh path owner requested = response at hresult hlocks ⊢
    cases hlocks with
    | refused => cases hresult
    | granted =>
      cases hresult
      exact ⟨⟨rfl, rfl⟩, (PathMap.get?_insert ..).trans (if_pos rfl)⟩
    | @renewed held _ hheld howner =>
      cases hresult
      have hpath : held.path = path := hfiled.path_eq_of_live? hheld
      exact ⟨⟨hpath, howner⟩, (PathMap.get?_insert ..).trans (if_pos hpath.symm)⟩
    | locked => cases hresult
  | refresh now id caller requested =>
    have hresult : (table.refresh policy now id caller requested).1 = .ok token :=
      Answer.granted.inj h
    show _ ∧ (table.refresh policy now id caller requested).2.get? token.path = some token
    unfold refresh at hresult ⊢
    have howns := table.owns_owned now id caller
    generalize table.owned now id caller = response at hresult howns ⊢
    cases howns with
    | unknown => cases hresult
    | lapsed => cases hresult
    | foreign => cases hresult
    | own hid _ howner =>
      cases hresult
      exact ⟨⟨(of_withId? hid hfiled).2, howner⟩, (PathMap.get?_insert ..).trans (if_pos rfl)⟩
  | unlock | current | under | release | releaseUnder => cases h

/-- Once a token was handed out in a run that started from an empty table, it belongs to whoever
asked for it, and it locks its document for everybody else: as long as no call that was made since
has disturbed it, no reading of the clock since has expired it, and the next one does not. -/
theorem excludes_of_granted {before later : List Call} {obtaining : Call}
    (hfresh : (issued (before ++ obtaining :: later)).Nodup)
    (hgranted : ((run policy .empty before).respond policy obtaining).1 = .granted (.ok token))
    (hundisturbed : ∀ call ∈ later, ¬call.Disturbs policy token)
    (htime : ∀ call ∈ later, ∀ now, call.reading? = some now → token.isExpired now = false)
    (hnow : token.isExpired now = false) :
    obtaining.Obtains token ∧
      Excludes policy (run policy .empty (before ++ obtaining :: later)) now token := by
  have hsound := sound_run policy hfresh
  rw [run_append, run_cons] at hsound ⊢
  -- The table is sound before the token is handed out as well.
  have hbefore : (run policy .empty before).Sound (issued before) := by
    refine sound_run policy ?_
    rw [issued, List.filterMap_append] at hfresh
    exact (List.nodup_append.1 hfresh).1
  obtain ⟨hobtains, hheld⟩ := get?_of_granted hbefore.filed hgranted
  have hfiled := filed_respond policy hbefore.filed obtaining
  have hkept := get?_run_of_undisturbed hfiled hheld htime hundisturbed
  exact ⟨hobtains, hsound.excludes policy (live?_eq_some_iff.2 ⟨hkept, hnow⟩)⟩

/-- A policy under which carol may write nowhere. -/
def exceptCarol : LockPolicy where
  permissions := .denying [⟨some ⟨"carol"⟩, none⟩]
  defaultTimeout := .ofSeconds 30
  maxTimeout := some (.ofSeconds 3600)

/-- A number of seconds after the epoch. -/
def atSecond (count : Nat) : Instant :=
  .addSaturating .epoch (.ofSeconds count)

/-- A document. -/
def minutes : Path :=
  (Path.root.child? "minutes".toList).getD .root

/-- The lock on a document, which alice asks for and gets. -/
def minutesTaken : Call :=
  .lock (atSecond 10) "first" minutes ⟨"alice"⟩ (some (.seconds 60))

/-- What others call for while alice holds the lock; the clock is set back once. -/
def minutesWanted : List Call :=
  [.lock (atSecond 20) "second" minutes ⟨"bob"⟩ none, .under (atSecond 69) .root,
    .refresh (atSecond 15) "first" ⟨"bob"⟩ none, .unlock (atSecond 30) "first" ⟨"carol"⟩,
    .releaseUnder ((Path.root.child? "archive".toList).getD .root)]

/-- The token that alice gets. -/
def minutesToken : LockToken :=
  .grant "first" minutes ⟨"alice"⟩ (.seconds 60) (atSecond 10)

/-- Until her lock expires, the others do not get it from alice. -/
theorem excludes_of_granted_minutes :
    (issued ([.current (atSecond 5) minutes] ++ minutesTaken :: minutesWanted)).Nodup ∧
    ((run exceptCarol .empty [.current (atSecond 5) minutes]).respond exceptCarol minutesTaken).1 =
      .granted (.ok minutesToken) ∧
    (∀ call ∈ minutesWanted, ¬call.Disturbs exceptCarol minutesToken) ∧
    (∀ call ∈ minutesWanted, ∀ now, call.reading? = some now →
      minutesToken.isExpired now = false) ∧
    minutesToken.isExpired (atSecond 69) = false ∧ minutesToken.isExpired (atSecond 70) = true ∧
    Excludes exceptCarol
      (run exceptCarol .empty ([.current (atSecond 5) minutes] ++ minutesTaken :: minutesWanted))
      (atSecond 69) minutesToken := by
  have hfresh :
      (issued ([.current (atSecond 5) minutes] ++ minutesTaken :: minutesWanted)).Nodup := by
    decide
  have hgranted : ((run exceptCarol .empty [.current (atSecond 5) minutes]).respond exceptCarol
      minutesTaken).1 = .granted (.ok minutesToken) := rfl
  have hundisturbed : ∀ call ∈ minutesWanted, ¬call.Disturbs exceptCarol minutesToken := by
    decide +kernel
  have htime : ∀ call ∈ minutesWanted, ∀ now, call.reading? = some now →
      minutesToken.isExpired now = false := by
    decide +kernel
  have hnow : minutesToken.isExpired (atSecond 69) = false := by decide +kernel
  exact ⟨hfresh, hgranted, hundisturbed, htime, hnow, by decide +kernel,
    (excludes_of_granted hfresh hgranted hundisturbed htime hnow).2⟩

end DocTree.LockTable
