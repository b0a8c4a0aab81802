import DocTree.Proofs.Config.Flights

/-!
# Nobody is served what is out of date

Callers share resolutions: whoever asks for a path that is being resolved waits for the result, and
whoever asks later finds it in the cache. None of them may be served a configuration from before a
removal of slots that covers their path, once they ask after it, however the steps of the callers,
the resolutions and the removals follow one another. Resolutions that an invalidation has overtaken
end next to the one that has taken their place, which is why slots carry the number of their
resolution: it is by the number that a resolution recognises its own slot.

The instants of a run are the positions in its history. An invariant relates the history to what is
found at its end. A slot stems from a resolution that began after the last removal that covers it.
So does what a caller waits for or returns, if only removals before its last look-up count.

## Main definitions

* `Gathering.Begins`, `Gathering.Ends`, `Gathering.Drops`, `Gathering.Looks`: what occurs at an
  instant.
* `Gathering.Computed` and `Gathering.Published`: where a configuration comes from.
* `Gathering.Intact` and `Gathering.Fresh`: no removal lies between a resolution and now, or between
  a resolution and a later look-up.
* `Gathering.Traced`: the invariant.
* `Gathering.SingleFlight`: what callers can rely on.

## Main results

* `Gathering.Traced.step`: every action keeps the invariant.
* `Gathering.singleFlight_run`: callers can rely on it in every run.
-/

namespace DocTree.Gathering

/-! ### Instants -/

/-- Something of a kind happens at an instant. -/
def Occurs (past : List Happening) (kind : Happening → Prop) (time : Nat) : Prop :=
  ∃ happening, past[time]? = some happening ∧ kind happening

/-- The resolution of a caller begins at an instant. -/
def Begins (past : List Happening) (leader : Nat) (path : Path) (flight : Flight) (start : Nat) :
    Prop :=
  Occurs past (· = .looked leader path (.lead flight)) start

/-- A resolution ends at an instant. -/
def Ends (past : List Happening) (path : Path) (flight : Flight) (finish : Nat) : Prop :=
  Occurs past (∃ leader result published, · = .ended leader path flight result published) finish

/-- A slot for the path is removed at an instant. -/
def Drops (past : List Happening) (path : Path) (drop : Nat) : Prop :=
  Occurs past (·.drops path = true) drop

/-- A caller looks its path up at an instant. -/
def Looks (past : List Happening) (index : Nat) (look : Nat) : Prop :=
  Occurs past (∃ path answer, · = .looked index path answer) look

/-- The resolution of an entry began at an instant, and has ended with the configuration of the
entry. What it has published is given, too. -/
def Yields (past : List Happening) (path : Path) (entry : CacheEntry)
    (published : Option CacheEntry) (start : Nat) : Prop :=
  ∃ leader finish, Begins past leader path entry.flight start ∧ start < finish ∧
    Occurs past (· = .ended leader path entry.flight (.ok entry.config) published) finish

/-- An entry was computed by the resolution that began at an instant. -/
def Computed (past : List Happening) (path : Path) (entry : CacheEntry) (start : Nat) : Prop :=
  ∃ published, Yields past path entry published start

/-- An entry was published by its resolution. -/
def Published (past : List Happening) (path : Path) (entry : CacheEntry) : Prop :=
  ∃ start, Yields past path entry (some entry) start

/-- Slots for the path were removed before an instant only. -/
def Intact (past : List Happening) (path : Path) (start : Nat) : Prop :=
  ∀ drop, Drops past path drop → drop < start

/-- What removes slots for the path before the caller looks it up comes before an instant. -/
def Fresh (past : List Happening) (index : Nat) (path : Path) (start : Nat) : Prop :=
  ∀ drop look, Drops past path drop → Looks past index look → drop < look → drop < start

variable {past : List Happening} {happening : Happening} {kind : Happening → Prop}
  {index leader : Nat} {path : Path} {flight : Flight} {entry : CacheEntry}
  {published : Option CacheEntry} {start time : Nat}

theorem Occurs.lt_length (h : Occurs past kind time) : time < past.length := by
  obtain ⟨_, h, -⟩ := h
  exact (List.getElem?_eq_some_iff.1 h).1

/-- What happens at the instants of a history that grows. -/
theorem occurs_concat_iff :
    Occurs (past ++ [happening]) kind time ↔
      Occurs past kind time ∨ time = past.length ∧ kind happening := by
  unfold Occurs
  rcases Nat.lt_trichotomy time past.length with hlt | rfl | hgt
  · rw [List.getElem?_append_left hlt]
    exact ⟨.inl, fun h => h.resolve_right fun h => absurd h.1 (Nat.ne_of_lt hlt)⟩
  · simp
  · rw [List.getElem?_eq_none (by simp; omega), List.getElem?_eq_none (by omega)]
    simp
    omega

theorem Occurs.concat (h : Occurs past kind time) (happening : Happening) :
    Occurs (past ++ [happening]) kind time :=
  occurs_concat_iff.2 (.inl h)

/-- What happens last happens now. -/
theorem occurs_now (past : List Happening) (h : kind happening) :
    Occurs (past ++ [happening]) kind past.length :=
  occurs_concat_iff.2 (.inr ⟨rfl, h⟩)

/-- What does not happen now has happened before. -/
theorem Occurs.of_concat (h : Occurs (past ++ [happening]) kind time) (hno : ¬kind happening) :
    Occurs past kind time :=
  (occurs_concat_iff.1 h).resolve_right fun hnow => hno hnow.2

theorem Yields.concat (h : Yields past path entry published start) (happening : Happening) :
    Yields (past ++ [happening]) path entry published start := by
  obtain ⟨leader, finish, hbegins, hlt, hends⟩ := h
  exact ⟨leader, finish, hbegins.concat _, hlt, hends.concat _⟩

theorem Computed.concat (h : Computed past path entry start) (happening : Happening) :
    Computed (past ++ [happening]) path entry start :=
  h.imp fun _ hyields => hyields.concat happening

theorem Published.concat (h : Published past path entry) (happening : Happening) :
    Published (past ++ [happening]) path entry :=
  h.imp fun _ hyields => hyields.concat happening

theorem Intact.concat (h : Intact past path start) (hno : happening.drops path = false) :
    Intact (past ++ [happening]) path start :=
  fun drop hdrop => h drop (hdrop.of_concat (Bool.eq_false_iff.1 hno))

/-- All removals come before what happens next. -/
theorem intact_length (past : List Happening) (path : Path) : Intact past path past.length :=
  fun _ hdrop => hdrop.lt_length

/-- What no removal has come after is fresh to whoever looks up now. -/
theorem Intact.fresh (h : Intact past path start) (happening : Happening) (index : Nat) :
    Fresh (past ++ [happening]) index path start := by
  intro drop look hdrop hlook hlt
  rcases occurs_concat_iff.1 hdrop with hdrop | ⟨rfl, -⟩
  · exact h drop hdrop
  · -- No look-up comes after what happens last.
    have hlength := hlook.lt_length
    rw [List.length_append, List.length_singleton] at hlength
    omega

/-- What is fresh to a caller stays so until it looks its path up again. -/
theorem Fresh.concat (h : Fresh past index path start)
    (hno : happening.answerTo? index = none) : Fresh (past ++ [happening]) index path start := by
  intro drop look hdrop hlook hlt
  have hlook : Looks past index look := by
    refine hlook.of_concat ?_
    rintro ⟨looked, answer, rfl⟩
    simp [Happening.answerTo?] at hno
  rcases occurs_concat_iff.1 hdrop with hdrop | ⟨rfl, -⟩
  · exact h drop look hdrop hlook hlt
  · exact absurd hlook.lt_length (Nat.not_lt.2 (Nat.le_of_lt hlt))

/-! ### The invariant -/

/-- How a caller relates to the history. -/
def CallerTraced (past : List Happening) (index : Nat) (caller : Caller) : Prop :=
  match caller.stage with
  | .looking => True
  | .resolving flight =>
    lastAnswer? past index = some (.lead flight) ∧
      ∃ start, Begins past index caller.path flight start ∧ Fresh past index caller.path start
  | .announcing flight published result =>
    lastAnswer? past index = some (.lead flight) ∧
      (∀ entry, result = .ok entry → ∃ start, Computed past caller.path entry start ∧
        Fresh past index caller.path start) ∧
      ∀ entry, published = some entry → entry.flight = flight ∧ Published past caller.path entry
  | .waiting flight =>
    lastAnswer? past index = some (.wait flight) ∧
      ∃ leader start, Begins past leader caller.path flight start ∧
        Fresh past index caller.path start
  | .returned result => ∀ entry, result = .ok entry →
    (∃ start, Computed past caller.path entry start ∧ Fresh past index caller.path start) ∧
      ∀ flight, lastAnswer? past index = some (.wait flight) →
        entry.flight = flight ∧ Published past caller.path entry

/-- How a slot relates to the history. -/
def SlotTraced (past : List Happening) (path : Path) : Slot → Prop
  | .ready entry => ∃ start, Computed past path entry start ∧ Intact past path start
  | .pending flight =>
    ∃ leader start, Begins past leader path flight start ∧ Intact past path start

/-- How a gathering relates to the history that has led to it. -/
structure Traced (past : List Happening) (g : Gathering) : Prop where
  /-- Numbers that were not given to a resolution are left. -/
  numbered : ∀ {leader path flight start}, Begins past leader path flight start →
    flight < g.cache.nextFlight
  /-- No number is given to two resolutions. -/
  once : ∀ {leader other path another flight start restart},
    Begins past leader path flight start → Begins past other another flight restart →
    start = restart
  /-- A resolution has ended, or its slot was removed, or is in place. -/
  settled : ∀ {leader path flight start}, Begins past leader path flight start →
    (∃ finish, start < finish ∧ Ends past path flight finish) ∨
      (∃ drop, start < drop ∧ Drops past path drop) ∨
      g.cache.slots.get? path = some (.pending flight)
  /-- Where a second resolution of a path begins, the first has ended, or a slot was removed in
  between. -/
  apart : ∀ {leader other path flight next start restart}, start < restart →
    Begins past leader path flight start → Begins past other path next restart →
    (∃ finish, start < finish ∧ finish < restart ∧ Ends past path flight finish) ∨
      ∃ drop, start < drop ∧ drop < restart ∧ Drops past path drop
  /-- The slots. -/
  slots : ∀ {path slot}, g.cache.slots.get? path = some slot → SlotTraced past path slot
  /-- The callers. -/
  callers : ∀ {index caller}, g.callers[index]? = some caller → CallerTraced past index caller
  /-- What was announced. -/
  outcomes : ∀ {flight entry}, g.outcomes.get? flight = some (some entry) →
    entry.flight = flight ∧ ∃ path, Published past path entry

variable {g after : Gathering}

theorem SlotTraced.concat {slot : Slot} (h : SlotTraced past path slot)
    (hno : happening.drops path = false) : SlotTraced (past ++ [happening]) path slot := by
  cases slot with
  | ready entry =>
    obtain ⟨start, hcomputed, hintact⟩ := h
    exact ⟨start, hcomputed.concat _, hintact.concat hno⟩
  | pending flight =>
    obtain ⟨leader, start, hbegins, hintact⟩ := h
    exact ⟨leader, start, hbegins.concat _, hintact.concat hno⟩

/-- A caller relates to the history as before if it is not the one that looks its path up. -/
theorem CallerTraced.concat {caller : Caller} (h : CallerTraced past index caller)
    (hno : happening.answerTo? index = none) :
    CallerTraced (past ++ [happening]) index caller := by
  obtain ⟨path, stage⟩ := caller
  unfold CallerTraced at h ⊢
  rw [lastAnswer?_concat past hno]
  cases stage with
  | looking => trivial
  | resolving flight =>
    obtain ⟨hanswer, start, hbegins, hfresh⟩ := h
    exact ⟨hanswer, start, hbegins.concat _, hfresh.concat hno⟩
  | announcing flight published result =>
    obtain ⟨hanswer, hresult, hpublished⟩ := h
    refine ⟨hanswer, fun entry hentry => ?_, fun entry hentry => ?_⟩
    · obtain ⟨start, hcomputed, hfresh⟩ := hresult entry hentry
      exact ⟨start, hcomputed.concat _, hfresh.concat hno⟩
    · exact ⟨(hpublished entry hentry).1, (hpublished entry hentry).2.concat _⟩
  | waiting flight =>
    obtain ⟨hanswer, leader, start, hbegins, hfresh⟩ := h
    exact ⟨hanswer, leader, start, hbegins.concat _, hfresh.concat hno⟩
  | returned result =>
    intro entry hentry
    obtain ⟨⟨start, hcomputed, hfresh⟩, hwaited⟩ := h entry hentry
    refine ⟨⟨start, hcomputed.concat _, hfresh.concat hno⟩, fun flight hanswer => ?_⟩
    exact ⟨(hwaited flight hanswer).1, (hwaited flight hanswer).2.concat _⟩

namespace Traced

/-- The resolution that begins now is the only one with its number. -/
theorem once_step (h : Traced past g) (hmoves : g.Moves happening after) {other : Nat}
    {another : Path} {restart : Nat}
    (hbegins : Begins (past ++ [happening]) leader path flight start)
    (hagain : Begins (past ++ [happening]) other another flight restart) : start = restart := by
  -- A number that is given now is greater than those that were given before.
  rcases occurs_concat_iff.1 hbegins with hpast | ⟨rfl, rfl⟩
  · rcases occurs_concat_iff.1 hagain with hold | ⟨rfl, rfl⟩
    · exact h.once hpast hold
    · obtain ⟨-, rfl, -⟩ := led_of_moves hmoves
      exact absurd (h.numbered hpast) (Nat.lt_irrefl _)
  · rcases occurs_concat_iff.1 hagain with hold | ⟨rfl, -⟩
    · obtain ⟨-, rfl, -⟩ := led_of_moves hmoves
      exact absurd (h.numbered hold) (Nat.lt_irrefl _)
    · rfl

theorem settled_step (h : Traced past g) (hmoves : g.Moves happening after)
    (hbegins : Begins (past ++ [happening]) leader path flight start) :
    (∃ finish, start < finish ∧ Ends (past ++ [happening]) path flight finish) ∨
      (∃ drop, start < drop ∧ Drops (past ++ [happening]) path drop) ∨
      after.cache.slots.get? path = some (.pending flight) := by
  rcases occurs_concat_iff.1 hbegins with hpast | ⟨-, rfl⟩
  · -- Only a slot that was in place can be lost now, and what takes it is what happens.
    have hlt := hpast.lt_length
    rcases h.settled hpast with ⟨finish, hfinish, hends⟩ | ⟨drop, hdrop, hdrops⟩ | hslot
    · exact .inl ⟨finish, hfinish, hends.concat _⟩
    · exact .inr (.inl ⟨drop, hdrop, hdrops.concat _⟩)
    · rcases pending_of_moves hmoves hslot with hslot | hdrops | hends
      · exact .inr (.inr hslot)
      · exact .inr (.inl ⟨past.length, hlt, occurs_now past hdrops⟩)
      · exact .inl ⟨past.length, hlt, occurs_now past hends⟩
  · exact .inr (.inr (led_of_moves hmoves).2.2.2)

theorem apart_step (h : Traced past g) (hmoves : g.Moves happening after) {other : Nat}
    {next : Flight} {restart : Nat} (hlt : start < restart)
    (hbegins : Begins (past ++ [happening]) leader path flight start)
    (hagain : Begins (past ++ [happening]) other path next restart) :
    (∃ finish, start < finish ∧ finish < restart ∧ Ends (past ++ [happening]) path flight finish) ∨
      ∃ drop, start < drop ∧ drop < restart ∧ Drops (past ++ [happening]) path drop := by
  rcases occurs_concat_iff.1 hagain with hold | ⟨rfl, rfl⟩
  · have hpast := (occurs_concat_iff.1 hbegins).resolve_right fun hnow =>
      Nat.lt_asymm hlt (hnow.1 ▸ hold.lt_length)
    rcases h.apart hlt hpast hold with
      ⟨finish, hafter, hbefore, hends⟩ | ⟨drop, hafter, hbefore, hdrops⟩
    · exact .inl ⟨finish, hafter, hbefore, hends.concat _⟩
    · exact .inr ⟨drop, hafter, hbefore, hdrops.concat _⟩
  · -- The second resolution begins now, and finds no slot.
    have hpast := (occurs_concat_iff.1 hbegins).resolve_right fun hnow => Nat.ne_of_lt hlt hnow.1
    rcases h.settled hpast with ⟨finish, hfinish, hends⟩ | ⟨drop, hdrop, hdrops⟩ | hslot
    · exact .inl ⟨finish, hfinish, hends.lt_length, hends.concat _⟩
    · exact .inr ⟨drop, hdrop, hdrops.lt_length, hdrops.concat _⟩
    · rw [(led_of_moves hmoves).1] at hslot
      cases hslot

/-- What a resolution that ends now comes up with was computed by it. -/
theorem yields_of_resolving (h : Traced past g)
    (hcaller : g.callers[index]? = some ⟨path, .resolving flight⟩) (config : EffectiveConfig)
    (published : Option CacheEntry) :
    ∃ start, Begins past index path flight start ∧ Fresh past index path start ∧
      Yields (past ++ [.ended index path flight (.ok config) published]) path ⟨flight, config⟩
        published start := by
  obtain ⟨-, start, hbegins, hfresh⟩ := h.callers hcaller
  exact ⟨start, hbegins, hfresh, index, past.length, hbegins.concat _, hbegins.lt_length,
    occurs_now past rfl⟩

theorem slots_step (h : Traced past g) (hmoves : g.Moves happening after) {slot : Slot}
    (hslot : after.cache.slots.get? path = some slot) :
    SlotTraced (past ++ [happening]) path slot := by
  cases slot_of_moves hmoves hslot with
  | kept hslot hdrops => exact (h.slots hslot).concat hdrops
  | @begun index =>
    exact ⟨index, past.length, occurs_now past rfl, (intact_length past path).concat rfl⟩
  | @published index flight config hcaller hpending =>
    obtain ⟨start, hbegins, -, hyields⟩ := h.yields_of_resolving hcaller config _
    obtain ⟨leader, restart, hagain, hintact⟩ := h.slots hpending
    -- The slot is that of the resolution that ends.
    obtain rfl := h.once hbegins hagain
    exact ⟨start, ⟨_, hyields⟩, hintact.concat rfl⟩

/-- The callers relate to the history as before, if the one whose stage is replaced does. -/
theorem callers_setStage (h : Traced past g) {old stage : CallerStage} {other : Nat}
    {caller : Caller} (hcaller : (g.setStage index stage).callers[other]? = some caller)
    (hold : g.callers[index]? = some ⟨path, old⟩)
    (hothers : other ≠ index → happening.answerTo? other = none)
    (hown : CallerTraced (past ++ [happening]) index ⟨path, stage⟩) :
    CallerTraced (past ++ [happening]) other caller := by
  have hkept := getElem?_callers_setStage hcaller
  split at hkept
  next hsame =>
    subst hsame
    obtain ⟨found, hfound, rfl⟩ := hkept
    cases hold.symm.trans hfound
    exact hown
  next hne => exact (h.callers hkept).concat (hothers (Ne.symm hne))

/-- What was announced for a number was published by the resolution that has the number. -/
theorem computed_of_outcome (h : Traced past g)
    (houtcome : g.outcomes.get? flight = some (some entry))
    (hbegins : Begins past leader path flight start) :
    entry.flight = flight ∧ Published past path entry ∧ Computed past path entry start := by
  obtain ⟨rfl, other, hpublished⟩ := h.outcomes houtcome
  have ⟨restart, hyields⟩ := hpublished
  have ⟨publisher, _, hagain, _⟩ := hyields
  obtain rfl := h.once hbegins hagain
  -- What begins at one instant has one path.
  obtain ⟨_, hfound, rfl⟩ := hbegins
  obtain ⟨_, hsame, rfl⟩ := hagain
  cases hfound.symm.trans hsame
  exact ⟨rfl, hpublished, some entry, hyields⟩

theorem callers_step (h : Traced past g) (hmoves : g.Moves happening after) {caller : Caller}
    (hcaller : after.callers[index]? = some caller) :
    CallerTraced (past ++ [happening]) index caller := by
  cases hmoves with
  | idle | dropped => exact (h.callers hcaller).concat rfl
  | @hit looking path entry hold hslot =>
    -- A slot that is in place is intact, and fresh to whoever looks now.
    obtain ⟨start, hcomputed, hintact⟩ := h.slots hslot
    refine h.callers_setStage hcaller hold (fun hne => if_neg (Ne.symm hne)) ?_
    rintro _ ⟨⟩
    refine ⟨⟨start, hcomputed.concat _, hintact.fresh _ _⟩, fun flight hanswer => ?_⟩
    rw [lastAnswer?_looked] at hanswer
    cases hanswer
  | @joined looking path flight hold hslot =>
    obtain ⟨leader, start, hbegins, hintact⟩ := h.slots hslot
    refine h.callers_setStage hcaller hold (fun hne => if_neg (Ne.symm hne)) ?_
    exact ⟨lastAnswer?_looked .., leader, start, hbegins.concat _, hintact.fresh _ _⟩
  | @led looking path hold hslot =>
    refine h.callers_setStage hcaller hold (fun hne => if_neg (Ne.symm hne)) ?_
    exact ⟨lastAnswer?_looked .., past.length, occurs_now past rfl,
      (intact_length past path).fresh _ _⟩
  | @published resolving path flight config hold hslot =>
    obtain ⟨start, -, hfresh, hyields⟩ :=
      h.yields_of_resolving hold config (some ⟨flight, config⟩)
    refine h.callers_setStage hcaller hold (fun _ => rfl) ⟨?_, ?_, ?_⟩
    · exact (lastAnswer?_concat past rfl).trans (h.callers hold).1
    · rintro _ ⟨⟩
      exact ⟨start, ⟨_, hyields⟩, hfresh.concat rfl⟩
    · rintro _ ⟨⟩
      exact ⟨rfl, start, hyields⟩
  | @failed resolving path flight error hold hslot =>
    refine h.callers_setStage hcaller hold (fun _ => rfl) ⟨?_, nofun, nofun⟩
    exact (lastAnswer?_concat past rfl).trans (h.callers hold).1
  | @superseded resolving path flight result hold hslot =>
    refine h.callers_setStage hcaller hold (fun _ => rfl) ⟨?_, fun entry hentry => ?_, nofun⟩
    · exact (lastAnswer?_concat past rfl).trans (h.callers hold).1
    · -- The caller returns what it has resolved, although nothing is published.
      cases result with
      | error error => cases hentry
      | ok config =>
        cases hentry
        obtain ⟨start, -, hfresh, hyields⟩ := h.yields_of_resolving hold config none
        exact ⟨start, ⟨none, hyields⟩, hfresh.concat rfl⟩
  | @announced announcing path flight published result hold =>
    obtain ⟨hanswer, hresult, -⟩ := h.callers hold
    refine h.callers_setStage hcaller hold (fun _ => rfl) fun entry hentry => ?_
    obtain ⟨start, hcomputed, hfresh⟩ := hresult entry hentry
    -- The caller has resolved for itself, and not waited.
    refine ⟨⟨start, hcomputed.concat _, hfresh.concat rfl⟩, fun waited hwait => ?_⟩
    rw [lastAnswer?_concat past rfl, hanswer] at hwait
    cases hwait
  | @woken waiting path flight entry hold houtcome =>
    obtain ⟨hanswer, leader, start, hbegins, hfresh⟩ := h.callers hold
    obtain ⟨hflight, hpublished, hcomputed⟩ := h.computed_of_outcome houtcome hbegins
    refine h.callers_setStage hcaller hold (fun _ => rfl) ?_
    rintro _ ⟨⟩
    refine ⟨⟨start, hcomputed.concat _, hfresh.concat rfl⟩, fun waited hwait => ?_⟩
    rw [lastAnswer?_concat past rfl, hanswer] at hwait
    cases hwait
    exact ⟨hflight, hpublished.concat _⟩
  | retried hold => exact h.callers_setStage hcaller hold (fun _ => rfl) trivial

theorem outcomes_step (h : Traced past g) (hmoves : g.Moves happening after)
    (houtcome : after.outcomes.get? flight = some (some entry)) :
    entry.flight = flight ∧ ∃ path, Published (past ++ [happening]) path entry := by
  rcases outcome_of_moves hmoves houtcome with houtcome | ⟨index, path, result, hcaller⟩
  · obtain ⟨hflight, path, hpublished⟩ := h.outcomes houtcome
    exact ⟨hflight, path, hpublished.concat _⟩
  · obtain ⟨-, -, hpublished⟩ := h.callers hcaller
    exact ⟨(hpublished entry rfl).1, path, (hpublished entry rfl).2.concat _⟩

/-- Every action keeps the invariant. -/
theorem step (h : Traced past g) (hmoves : g.Moves happening after) :
    Traced (past ++ [happening]) after where
  numbered hbegins := by
    -- The number that is given now is the one that was next.
    rcases occurs_concat_iff.1 hbegins with hpast | ⟨-, rfl⟩
    · exact Nat.lt_of_lt_of_le (h.numbered hpast) (nextFlight_le_of_moves hmoves)
    · exact (led_of_moves hmoves).2.2.1
  once := h.once_step hmoves
  settled := h.settled_step hmoves
  apart := h.apart_step hmoves
  slots := h.slots_step hmoves
  callers := h.callers_step hmoves
  outcomes := h.outcomes_step hmoves

theorem initial (paths : List Path) : Traced [] (initial .empty paths) where
  numbered := nofun
  once := nofun
  settled := nofun
  apart _ := nofun
  slots := nofun
  callers {index caller} hcaller := by
    obtain ⟨path, -, rfl⟩ := List.mem_map.1 (List.mem_of_getElem? hcaller)
    trivial
  outcomes := nofun

/-- After any actions, the gathering relates to what has happened in all of them. -/
theorem run (h : Traced past g) (actions : List CacheAction) :
    Traced (past ++ g.history actions) (g.run actions) := by
  induction actions generalizing past g with
  | nil => simpa [history, Gathering.run] using h
  | cons action rest ih =>
    have hrest := ih (h.step (g.moves_step action))
    rwa [List.append_assoc] at hrest

end Traced

/-! ### What callers can rely on -/

/-- What the callers of a cache can rely on in a run, from the gathering in which it starts. -/
structure SingleFlight (g : Gathering) (actions : List CacheAction) : Prop where
  /-- Each number stands for one resolution. -/
  once : ∀ {leader other path another flight start restart},
    Begins (g.history actions) leader path flight start →
    Begins (g.history actions) other another flight restart → start = restart
  /-- What a caller returns was computed by a resolution that began after every removal that covers
  its path and precedes its last look-up. -/
  returned : ∀ {index path entry},
    (g.run actions).callers[index]? = some ⟨path, .returned (.ok entry)⟩ →
    ∃ start, Computed (g.history actions) path entry start ∧
      ∀ drop look, Drops (g.history actions) path drop → Looks (g.history actions) index look →
        drop < look → drop < start
  /-- What is cached was computed by a resolution that began after every removal that covers its
  path. -/
  cached : ∀ {path entry}, (g.run actions).cache.get? path = some entry →
    ∃ start, Computed (g.history actions) path entry start ∧
      ∀ drop, Drops (g.history actions) path drop → drop < start
  /-- A resolution of a path begins while another is under way only if a slot for the path was
  removed in between. -/
  apart : ∀ {leader other path flight next start restart}, start < restart →
    Begins (g.history actions) leader path flight start →
    Begins (g.history actions) other path next restart →
    (∀ finish, start < finish → finish < restart →
      ¬Ends (g.history actions) path flight finish) →
    ∃ drop, start < drop ∧ drop < restart ∧ Drops (g.history actions) path drop
  /-- What a caller returns after it has waited is what it has waited for, and was cached at some
  time. -/
  waited : ∀ {index path entry flight},
    (g.run actions).callers[index]? = some ⟨path, .returned (.ok entry)⟩ →
    lastAnswer? (g.history actions) index = some (.wait flight) →
    entry.flight = flight ∧ ∃ time, (g.run (actions.take time)).cache.get? path = some entry

/-- What was published was cached at some time. -/
theorem exists_get?_of_published {actions : List CacheAction}
    (h : Published (g.history actions) path entry) :
    ∃ time, (g.run (actions.take time)).cache.get? path = some entry := by
  obtain ⟨start, leader, finish, -, -, _, hends, rfl⟩ := h
  rw [getElem?_history, Option.map_eq_some_iff] at hends
  obtain ⟨action, haction, hhappening⟩ := hends
  have hmoves := (g.run (actions.take finish)).moves_step action
  rw [hhappening, ← run_take_succ g haction] at hmoves
  exact ⟨finish + 1, get?_of_published hmoves⟩

/-- However the steps of any number of callers, the results of their resolutions and removals of
slots follow one another, callers share resolutions and nobody is served what is out of date. -/
theorem singleFlight_run (paths : List Path) (actions : List CacheAction) :
    SingleFlight (initial .empty paths) actions := by
  have htraced : Traced ((initial .empty paths).history actions)
      ((initial .empty paths).run actions) := (Traced.initial paths).run actions
  refine ⟨htraced.once, fun hcaller => ?_, fun hcached => ?_, fun hlt hbegins hagain hongoing => ?_,
    fun hcaller hanswer => ?_⟩
  · exact (htraced.callers hcaller _ rfl).1
  · exact htraced.slots (ConfigCache.get?_eq_some_iff.1 hcached)
  · refine (htraced.apart hlt hbegins hagain).resolve_left ?_
    rintro ⟨finish, hafter, hbefore, hends⟩
    exact hongoing finish hafter hbefore hends
  · obtain ⟨hflight, hpublished⟩ := (htraced.callers hcaller _ rfl).2 _ hanswer
    exact ⟨hflight, exists_get?_of_published hpublished⟩

/-- An invalidation overtakes the resolution of the first caller while the third one waits for it.
The second caller resolves anew, and both resolutions are under way for a time. -/
def overtaking : List CacheAction :=
  let next (index : Nat) : CacheAction := .advance index (.ok (.empty .root))
  [next 0, next 2, .invalidate .root, next 1, next 0, next 0, next 2, next 1, next 1, next 2]

/-- What the first caller comes up with is not cached, and the third caller gets what the second one
comes up with. -/
example :
    (((initial .empty [.root, .root, .root]).run overtaking).results.map fun result =>
      result.toOption.map CacheEntry.flight) = [some 0, some 1, some 1] := by
  decide +kernel

end DocTree.Gathering
