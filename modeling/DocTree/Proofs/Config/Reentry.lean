import DocTree.Proofs.Config.Usage

/-!
# Resolutions that use the cache

While a configuration is resolved, the function that resolves it may use the cache: look for other
configurations, remove slots, ask for configurations. When it returns, the slot that its caller was
given is in place, or it is gone, or another resolution of the same path, which the removal has made
necessary, has been published in its place. The caller tells these apart by the number in the slot,
since numbers are never given twice.

The proof rests on what calls that are over leave behind. A slot that was there before is still
there unless it was removed, and a slot that is there now, and was not before, holds a configuration
with a later number. So the slot of a caller is in place exactly if it was not removed while the
function ran, and what is found in its place otherwise is not the caller's own.

## Main definitions

* `ConfigCache.Leaves`: what calls leave of the slots that were there before.
* `ConfigCache.Passes` and `ConfigCache.Proceeds`: how the cache changes from moment to moment.
* `ConfigCache.Handled`: what comes of asking for a configuration.
* `Reentrant`: what can be relied on in a run.

## Main results

* `ConfigCache.Calls.leaves` and `ConfigCache.Calls.proceeds`: what holds of all calls.
* `ConfigCache.Calls.handled`: what comes of each of them, and how often its function is called.
* `CacheScript.reentrant_run`: functions may use the cache that they resolve configurations for.
-/

namespace DocTree

namespace ConfigCache

variable {cache before after resolved : ConfigCache} {path other : Path} {flight : Flight}
  {entry : CacheEntry} {result : Except ConfigError EffectiveConfig} {time : Nat}
  {moments more inner : List CacheMoment}

/-! ### What calls leave -/

/-- What calls that are over leave of the slots that were there when they began. -/
structure Leaves (before : ConfigCache) (moments : List CacheMoment) (after : ConfigCache) :
    Prop where
  /-- A slot stays in place until it is removed. -/
  kept : ∀ {path slot}, before.slots.get? path = some slot → ¬Dropped moments path →
    after.slots.get? path = some slot
  /-- A slot was in place all the time, or a resolution that has begun since was published in it. -/
  origin : ∀ {path slot}, after.slots.get? path = some slot →
    (before.slots.get? path = some slot ∧ ¬Dropped moments path) ∨
      ∃ entry, slot = .ready entry ∧ before.nextFlight ≤ entry.flight
  /-- The numbers of resolutions grow. -/
  numbered : before.nextFlight ≤ after.nextFlight

theorem Leaves.refl (cache : ConfigCache) (h : ∀ path, ¬Dropped moments path) :
    cache.Leaves moments cache where
  kept hslot _ := hslot
  origin hslot := .inl ⟨hslot, h _⟩
  numbered := Nat.le_refl _

theorem Leaves.trans {between : ConfigCache} (h : before.Leaves moments between)
    (hmore : between.Leaves more after) : before.Leaves (moments ++ more) after where
  kept hslot hno := by
    rw [dropped_append, not_or] at hno
    exact hmore.kept (h.kept hslot hno.1) hno.2
  origin {path slot} hslot := by
    rcases hmore.origin hslot with ⟨hbetween, hno⟩ | ⟨entry, rfl, hle⟩
    · rcases h.origin hbetween with ⟨hbefore, hnot⟩ | hpublished
      · exact .inl ⟨hbefore, by simp [hno, hnot]⟩
      · exact .inr hpublished
    · exact .inr ⟨entry, rfl, Nat.le_trans h.numbered hle⟩
  numbered := Nat.le_trans h.numbered hmore.numbered

/-- A slot that was pending is so exactly if it has not been removed. -/
theorem Leaves.pending_iff (h : before.Leaves moments after)
    (hslot : before.slots.get? path = some (.pending flight)) :
    after.slots.get? path = some (.pending flight) ↔ ¬Dropped moments path := by
  refine ⟨fun hpending => ?_, h.kept hslot⟩
  rcases h.origin hpending with ⟨-, hno⟩ | ⟨entry, hready, -⟩
  · exact hno
  · cases hready

/-- A resolution leaves its own configuration at most, and otherwise what its function leaves. -/
theorem Leaves.finish (hfree : cache.slots.get? path = none)
    (h : (cache.lead path).Leaves inner resolved)
    (hdropped : ∀ other, Dropped moments other ↔ Dropped inner other) :
    cache.Leaves moments (resolved.finish path cache.nextFlight result).2 where
  kept {other slot} hslot hno := by
    have hne : path ≠ other := by
      rintro rfl
      rw [hfree] at hslot
      cases hslot
    rw [get?_slots_finish_of_ne hne]
    refine h.kept ?_ (mt (hdropped other).2 hno)
    rw [get?_slots_lead, if_neg hne, hslot]
  origin {other slot} hslot := by
    -- Only the slot that the resolution was given is written, and only while it is still there.
    by_cases hown : path = other ∧ resolved.slots.get? path = some (.pending cache.nextFlight)
    · obtain ⟨rfl, hpending⟩ := hown
      rw [get?_slots_finish_of_pending hpending] at hslot
      obtain ⟨config, -, rfl⟩ := Option.map_eq_some_iff.1 hslot
      exact .inr ⟨_, rfl, Nat.le_refl _⟩
    · have hkept : resolved.slots.get? other = some slot := by
        by_cases hne : path = other
        · subst hne
          rwa [finish_of_superseded fun hpending => hown ⟨rfl, hpending⟩] at hslot
        · rwa [get?_slots_finish_of_ne hne] at hslot
      rcases h.origin hkept with ⟨hlead, hno⟩ | ⟨entry, rfl, hle⟩
      · rw [get?_slots_lead] at hlead
        split at hlead
        next hsame =>
          -- This would be the pending slot of the resolution.
          cases hlead
          exact absurd ⟨hsame, hsame ▸ hkept⟩ hown
        · exact .inl ⟨hlead, mt (hdropped other).1 hno⟩
      · exact .inr ⟨entry, rfl, Nat.le_of_succ_le hle⟩
  numbered := by
    rw [nextFlight_finish]
    exact Nat.le_of_succ_le h.numbered

theorem Calls.leaves (h : Calls time before moments after) : before.Leaves moments after := by
  induction h with
  | nil => exact .refl _ fun _ => not_dropped_nil _
  | append _ _ ih ihMore => exact ih.trans ihMore
  | got => exact .refl _ fun _ => by simp [CacheEvent.drops]
  | @dropped _ cache top slots hslots =>
    refine ⟨fun {path slot} hslot hno => ?_, fun {path slot} hslot => ?_, Nat.le_refl _⟩
    · have hno : (CacheEvent.dropped top).drops path = false := by simpa using hno
      exact (hslots path).trans (by rw [hno, hslot]; rfl)
    · have hfound := (hslots path).symm.trans hslot
      split at hfound
      · cases hfound
      next hno => exact .inl ⟨hfound, by simpa using hno⟩
  | hit => exact .refl _ fun _ => by simp [CacheEvent.drops]
  | miss hslot _ ih => exact ih.finish hslot fun _ => by simp [CacheEvent.drops]

/-! ### From one moment to the next -/

/-- How the cache is at a moment, by what it was before. -/
structure Passes (before : ConfigCache) (moment : CacheMoment) : Prop where
  /-- What is cached stays cached until its slot is removed. -/
  kept : ∀ {path entry}, before.get? path = some entry → moment.event.drops path = false →
    moment.cache.get? path = some entry
  /-- The numbers of resolutions grow. -/
  numbered : before.nextFlight ≤ moment.cache.nextFlight
  /-- Who looks for a configuration is told what is cached. -/
  told : ∀ {path answer}, moment.event = .got path answer → answer = moment.cache.get? path

/-- Moment by moment from one cache to another. -/
def Proceeds : ConfigCache → List CacheMoment → ConfigCache → Prop
  | before, [], after => before = after
  | before, moment :: moments, after => before.Passes moment ∧ moment.cache.Proceeds moments after

theorem proceeds_append :
    before.Proceeds (moments ++ more) after ↔
      ∃ between, before.Proceeds moments between ∧ between.Proceeds more after := by
  induction moments generalizing before with
  | nil => simp [Proceeds]
  | cons moment moments ih => simp [Proceeds, ih, and_assoc]

theorem passes_self {event : CacheEvent}
    (h : ∀ path answer, event = .got path answer → answer = cache.get? path) :
    cache.Passes ⟨event, cache⟩ where
  kept hcached _ := hcached
  numbered := Nat.le_refl _
  told hevent := h _ _ hevent

/-- A slot for the next resolution does not take the place of a configuration. -/
theorem passes_lead (hfree : cache.slots.get? path = none) (call : Nat) :
    cache.Passes ⟨.began call, cache.lead path⟩ where
  kept {other entry} hcached _ := by
    rw [get?_eq_some_iff] at hcached ⊢
    rw [get?_slots_lead, if_neg, hcached]
    rintro rfl
    rw [hfree] at hcached
    cases hcached
  numbered := Nat.le_succ _
  told := nofun

/-- A configuration that is cached is neither replaced nor removed where a resolution ends. -/
theorem passes_finish (cache : ConfigCache) (path : Path) (flight : Flight)
    (result : Except ConfigError EffectiveConfig) (call : Nat)
    (answer : Except ConfigError CacheEntry) :
    cache.Passes ⟨.answered call answer, (cache.finish path flight result).2⟩ where
  kept {other entry} hcached _ := by
    rw [get?_eq_some_iff] at hcached ⊢
    by_cases hsame : path = other
    · -- The slot is not the one of the resolution, since it is not pending.
      subst hsame
      rw [finish_of_superseded, hcached]
      rw [hcached]
      nofun
    · rw [get?_slots_finish_of_ne hsame, hcached]
  numbered := Nat.le_of_eq (nextFlight_finish ..).symm
  told := nofun

theorem Calls.proceeds (h : Calls time before moments after) : before.Proceeds moments after := by
  induction h with
  | nil => rfl
  | append _ _ ih ihMore => exact proceeds_append.2 ⟨_, ih, ihMore⟩
  | got => exact ⟨passes_self fun _ _ heq => by cases heq; rfl, rfl⟩
  | dropped hslots =>
    refine ⟨⟨fun {path entry} hcached hno => ?_, Nat.le_refl _, nofun⟩, rfl⟩
    rw [get?_eq_some_iff] at hcached ⊢
    exact (hslots path).trans (by rw [hno, hcached]; rfl)
  | hit => exact ⟨passes_self nofun, passes_self nofun, rfl⟩
  | miss hslot _ ih =>
    exact ⟨passes_self nofun, passes_lead hslot _,
      proceeds_append.2 ⟨_, ih, passes_self nofun, passes_finish .., rfl⟩⟩

/-- What is cached at one time is so later on, unless its slot is removed in between. -/
theorem Proceeds.kept {last : CacheMoment}
    (h : before.Proceeds (moments ++ last :: more) after)
    (hcached : before.get? path = some entry) (hno : ¬Dropped (moments ++ [last]) path) :
    last.cache.get? path = some entry := by
  induction moments generalizing before with
  | nil => exact h.1.kept hcached (by simpa using hno)
  | cons moment moments ih =>
    simp only [List.cons_append, dropped_cons, not_or] at hno
    exact ih h.2 (h.1.kept hcached (by simpa using hno.1)) hno.2

theorem Proceeds.numbered {last : CacheMoment}
    (h : before.Proceeds (moments ++ last :: more) after) :
    before.nextFlight ≤ last.cache.nextFlight := by
  induction moments generalizing before with
  | nil => exact h.1.numbered
  | cons moment moments ih => exact Nat.le_trans h.1.numbered (ih h.2)

/-! ### Numbers of calls -/

/-- What happens in the course of a call bears the number of a call that was made since. -/
theorem Calls.call_range (h : Calls time before moments after) {moment : CacheMoment}
    (hmem : moment ∈ moments) {call : Nat} (hcall : moment.event.call? = some call) :
    time ≤ call ∧ call < time + moments.length := by
  induction h with
  | nil => cases hmem
  | append _ _ ih ihMore =>
    rw [List.length_append]
    rcases List.mem_append.1 hmem with hmem | hmem
    · have := ih hmem
      omega
    · have := ihMore hmem
      omega
  | got | dropped =>
    obtain rfl := List.mem_singleton.1 hmem
    cases hcall
  | hit =>
    simp only [List.mem_cons, List.not_mem_nil, or_false] at hmem
    rcases hmem with rfl | rfl <;> cases hcall
    simp
  | miss _ _ ih =>
    simp only [List.mem_cons, List.mem_append, List.not_mem_nil, or_false] at hmem
    simp only [List.length_cons, List.length_append, List.length_nil]
    rcases hmem with rfl | rfl | hmem | rfl | rfl
    · cases hcall
    · cases hcall
      omega
    · have := ih hmem
      omega
    · cases hcall
      omega
    · cases hcall
      omega

/-- No function of a call starts outside the time in which calls are made. -/
theorem Calls.countP_begins (h : Calls time before moments after) {call : Nat}
    (hcall : call < time ∨ time + moments.length ≤ call) :
    moments.countP (·.event.begins call) = 0 := by
  rw [List.countP_eq_zero]
  intro moment hmem hbegins
  have hrange := h.call_range hmem (CacheEvent.call?_of_begins hbegins)
  omega

/-! ### Calls one by one -/

/-- What happens after a configuration was asked for, if the call has the given number and the cache
was the given one. -/
inductive Handled (call : Nat) (path : Path) (before : ConfigCache) : List CacheMoment → Prop where
  /-- The configuration is cached. It is the answer, and nothing happens in between. -/
  | hit {entry : CacheEntry} {later : List CacheMoment} (hcached : before.get? path = some entry) :
      Handled call path before (⟨.answered call (.ok entry), before⟩ :: later)
  /-- The configuration is not cached. The function of the call resolves it, and the answer is what
  the function returns, under a number of its own. -/
  | miss {led resolved after : ConfigCache} {inner later : List CacheMoment}
      {result : Except ConfigError EffectiveConfig} {answer : Except ConfigError CacheEntry}
      (hcached : before.get? path = none)
      (hinner : ∀ moment ∈ inner, moment.event.call? ≠ some call)
      (hnumber : led.nextFlight = before.nextFlight + 1)
      (hanswer : answer = result.map (⟨before.nextFlight, ·⟩))
      -- The answer is cached unless the slot was removed in the meantime.
      (hpublished : (∃ entry, answer = .ok entry ∧ after.get? path = some entry) ↔
        (∃ config, result = .ok config) ∧ ¬Dropped inner path)
      (hfailed : (∃ error, result = .error error) → ¬Dropped inner path →
        after.slots.get? path = none)
      -- If it was removed, then the cache stays as the function leaves it.
      (hkept : Dropped inner path → after = resolved)
      (hpending : ∀ other flight, after.slots.get? other = some (.pending flight) →
        before.slots.get? other = some (.pending flight)) :
      Handled call path before
        (⟨.began call, led⟩ :: (inner ++
          ⟨.ended call result, resolved⟩ :: ⟨.answered call answer, after⟩ :: later))

theorem Handled.append {call : Nat} (h : Handled call path before moments)
    (more : List CacheMoment) : Handled call path before (moments ++ more) := by
  cases h with
  | hit hcached => exact .hit hcached
  | miss hcached hinner hnumber hanswer hpublished hfailed hkept hpending =>
    simp only [List.cons_append, List.append_assoc]
    exact .miss hcached hinner hnumber hanswer hpublished hfailed hkept hpending

/-- A resolution whose slot was removed is not cached: what may be cached has a greater number. -/
theorem Calls.get?_ne_of_dropped (h : Calls time (cache.lead path) inner resolved)
    (hdropped : Dropped inner path) (config : EffectiveConfig) :
    resolved.get? path ≠ some ⟨cache.nextFlight, config⟩ := by
  intro hcached
  rw [get?_eq_some_iff] at hcached
  rcases h.leaves.origin hcached with ⟨-, hno⟩ | ⟨entry, hready, hle⟩
  · exact hno hdropped
  · cases hready
    exact absurd hle (Nat.not_succ_le_self _)

/-- What comes of asking for a configuration that is not cached. -/
theorem Calls.handled_miss (hfree : cache.slots.get? path = none)
    (h : Calls (time + 2) (cache.lead path) inner resolved) :
    Handled time path cache
      (⟨.began time, cache.lead path⟩ :: (inner ++
        [⟨.ended time result, resolved⟩,
          ⟨.answered time (result.map (⟨cache.nextFlight, ·⟩)),
            (resolved.finish path cache.nextFlight result).2⟩])) := by
  -- The slot is in place at the end exactly if it has not been removed.
  have hpending : resolved.slots.get? path = some (.pending cache.nextFlight) ↔
      ¬Dropped inner path := by
    refine h.leaves.pending_iff ?_
    rw [get?_slots_lead, if_pos rfl]
  refine .miss (by simp [get?, hfree]) ?_ rfl rfl ?_ ?_ ?_ ?_
  · intro moment hmem hcall
    have hrange := h.call_range hmem hcall
    omega
  · by_cases hdropped : Dropped inner path
    · rw [finish_of_superseded fun hown => hpending.1 hown hdropped]
      cases result with
      | ok config => simpa [Except.map, hdropped] using h.get?_ne_of_dropped hdropped config
      | error e => simp [Except.map]
    · simp only [get?_eq_some_iff, get?_slots_finish_of_pending (hpending.2 hdropped), hdropped]
      cases result <;> simp [Except.map, Except.toOption]
  · rintro ⟨e, rfl⟩ hno
    exact get?_slots_finish_of_pending (hpending.2 hno)
  · intro hdropped
    exact finish_of_superseded fun hown => hpending.1 hown hdropped
  · intro other flight hslot
    rcases (h.leaves.finish hfree fun _ => Iff.rfl).origin hslot with ⟨hbefore, -⟩ | ⟨_, hready, -⟩
    · exact hbefore
    · cases hready

/-- A moment of a list put together from two is in the first or in the second. -/
theorem exists_of_append_eq {front rest : List CacheMoment} {moment : CacheMoment}
    (h : moments ++ more = front ++ moment :: rest) :
    (∃ inside, moments = front ++ moment :: inside ∧ rest = inside ++ more) ∨
      ∃ start, front = moments ++ start ∧ more = start ++ moment :: rest := by
  rcases List.append_eq_append_iff.1 h with hstart | ⟨others, hothers, hcons⟩
  · exact .inr hstart
  · rcases List.cons_eq_append_iff.1 hcons with ⟨rfl, hmore⟩ | ⟨inside, rfl, hrest⟩
    · exact .inr ⟨[], by simpa using hothers.symm, hmore⟩
    · exact .inl ⟨inside, hothers, hrest⟩

/-- Where nothing is asked for, no configuration is asked for at any moment. -/
theorem ne_of_forall_ne_asked {front rest : List CacheMoment} {asking : ConfigCache}
    (h : ∀ moment ∈ moments, moment.event ≠ .asked path) :
    moments ≠ front ++ ⟨.asked path, asking⟩ :: rest := by
  rintro rfl
  exact h ⟨.asked path, asking⟩ (by simp) rfl

/-- In the course of a call with a function, a configuration is asked for by the call itself, which
is the first moment, or by the function. -/
theorem eq_nil_or_exists_of_miss {first : CacheMoment} {call : Nat} {led asking : ConfigCache}
    {answer : Except ConfigError CacheEntry} {front rest : List CacheMoment}
    (h : first :: ⟨.began call, led⟩ ::
      (inner ++ [⟨.ended call result, resolved⟩, ⟨.answered call answer, after⟩]) =
        front ++ ⟨.asked path, asking⟩ :: rest) :
    (front = [] ∧ first = ⟨.asked path, asking⟩ ∧ rest = ⟨.began call, led⟩ ::
      (inner ++ [⟨.ended call result, resolved⟩, ⟨.answered call answer, after⟩])) ∨
      ∃ start inside, front = first :: ⟨.began call, led⟩ :: start ∧
        inner = start ++ ⟨.asked path, asking⟩ :: inside ∧
        rest = inside ++ [⟨.ended call result, resolved⟩, ⟨.answered call answer, after⟩] := by
  rcases List.cons_eq_append_iff.1 h with ⟨rfl, hfirst⟩ | ⟨others, rfl, hothers⟩
  · obtain ⟨hasked, hrest⟩ := List.cons.inj hfirst
    exact .inl ⟨rfl, hasked.symm, hrest⟩
  · rcases List.cons_eq_append_iff.1 hothers with ⟨-, hbegan⟩ | ⟨start, rfl, hstart⟩
    · cases (List.cons.inj hbegan).1
    · rcases exists_of_append_eq hstart with ⟨inside, hinside, hrest⟩ | ⟨last, -, hlast⟩
      · exact .inr ⟨start, inside, rfl, hinside, hrest⟩
      · exact absurd hlast (ne_of_forall_ne_asked (by simp))

/-- What comes of each asking for a configuration, at whatever depth. The function of a call is
called exactly if the configuration is not cached, and then once. -/
theorem Calls.handled (h : Calls time before moments after) {front rest : List CacheMoment}
    {asking : ConfigCache} (hmoments : moments = front ++ ⟨.asked path, asking⟩ :: rest) :
    Handled (time + front.length) path asking rest ∧
      moments.countP (·.event.begins (time + front.length)) =
        if (asking.get? path).isSome then 0 else 1 := by
  induction h generalizing front rest path asking with
  | nil => simp at hmoments
  | @append time _ _ _ first second hfirst hmore ih ihMore =>
    rw [List.countP_append]
    rcases exists_of_append_eq hmoments with ⟨inside, hinside, rfl⟩ | ⟨start, rfl, hstart⟩
    · obtain ⟨hhandled, hcount⟩ := ih hinside
      refine ⟨hhandled.append _, ?_⟩
      rw [hcount, hmore.countP_begins (.inl (by simp [hinside])), Nat.add_zero]
    · obtain ⟨hhandled, hcount⟩ := ihMore hstart
      rw [List.length_append, ← Nat.add_assoc]
      refine ⟨hhandled, ?_⟩
      rw [hcount, hfirst.countP_begins (.inr (Nat.le_add_right ..)), Nat.zero_add]
  | got | dropped => exact absurd hmoments (ne_of_forall_ne_asked (by simp))
  | hit hslot =>
    rcases List.cons_eq_append_iff.1 hmoments with ⟨rfl, hasked⟩ | ⟨start, rfl, hrest⟩
    · cases hasked
      have hcached := get?_eq_some_iff.2 hslot
      exact ⟨.hit hcached, by simp [hcached, CacheEvent.begins]⟩
    · exact absurd hrest (ne_of_forall_ne_asked (by simp))
  | @miss time cache resolved missed inner result hslot hinner ih =>
    rcases eq_nil_or_exists_of_miss hmoments with ⟨rfl, hasked, rfl⟩ | ⟨start, _, rfl, hstart, rfl⟩
    · -- This is the call itself. The calls that its function makes have other numbers.
      cases hasked
      refine ⟨hinner.handled_miss hslot, ?_⟩
      have hcount : inner.countP (·.event.begins time) = 0 :=
        hinner.countP_begins (.inl (Nat.lt_add_of_pos_right Nat.two_pos))
      rw [List.length_nil, Nat.add_zero, List.countP_cons, List.countP_cons, List.countP_append,
        hcount]
      simp [get?, hslot, CacheEvent.begins]
    · -- This is a call that the function makes.
      obtain ⟨hhandled, hcount⟩ := ih hstart
      have hnumber : time + (start.length + 1 + 1) = time + 2 + start.length := by omega
      have hother : time ≠ time + 2 + start.length := by omega
      rw [List.length_cons, List.length_cons, hnumber]
      refine ⟨hhandled.append _, ?_⟩
      rw [List.countP_cons, List.countP_cons, List.countP_append, hcount]
      simp [hother, CacheEvent.begins]

end ConfigCache

/-! ### Whole runs -/

/-- The configuration that somebody finds at a moment who looks or asks for the one of a path. -/
def CacheMoment.finds? (moment : CacheMoment) (path : Path) : Option CacheEntry :=
  match moment.event with
  | .got other answer => if other = path then answer else none
  | .asked other => if other = path then moment.cache.get? path else none
  | _ => none

/-- What can be relied on where functions that resolve configurations use the cache themselves, in
terms of all that has happened and of the cache after it. -/
structure Reentrant (past : List CacheMoment) (after : ConfigCache) : Prop where
  /-- Each call is answered, with what is cached or else with what its function returns, which is
  cached from then on unless the slot was removed in the meantime. -/
  handled : ∀ {front rest path before}, past = front ++ ⟨.asked path, before⟩ :: rest →
    ConfigCache.Handled front.length path before rest
  /-- Its function is called once if the configuration is not cached, and otherwise not at all. -/
  runs : ∀ {front rest path before}, past = front ++ ⟨.asked path, before⟩ :: rest →
    past.countP (·.event.begins front.length) = if (before.get? path).isSome then 0 else 1
  /-- What is cached at one time is so later on, unless its slot is removed in between. -/
  lasting : ∀ {front first between last rest path entry},
    past = front ++ first :: (between ++ last :: rest) → first.cache.get? path = some entry →
    ¬Dropped (between ++ [last]) path → last.cache.get? path = some entry
  /-- Whoever finds a configuration for a path finds the same one, unless its slot is removed in
  between. -/
  same : ∀ {front first between last rest path entry other},
    past = front ++ first :: (between ++ last :: rest) → first.finds? path = some entry →
    last.finds? path = some other → ¬Dropped between path → other = entry
  /-- No two resolutions have the same number. -/
  distinct : ∀ {front between rest path other before again},
    past = front ++ ⟨.asked path, before⟩ :: (between ++ ⟨.asked other, again⟩ :: rest) →
    before.get? path = none → before.nextFlight < again.nextFlight
  /-- No resolution is under way at the end. -/
  atRest : after.AtRest

namespace ConfigCache

variable {cache before after : ConfigCache} {path : Path} {entry : CacheEntry} {time : Nat}
  {moments front rest : List CacheMoment} {moment : CacheMoment}

/-- What somebody finds at a moment is cached then, and is not removed. -/
theorem Proceeds.get?_of_finds? (h : before.Proceeds (front ++ moment :: rest) after)
    (hfinds : moment.finds? path = some entry) :
    moment.cache.get? path = some entry ∧ moment.event.drops path = false := by
  obtain ⟨_, -, hpasses, -⟩ := proceeds_append.1 h
  obtain ⟨event, cache⟩ := moment
  cases event with
  | got other answer =>
    have hfinds : (if other = path then answer else none) = some entry := hfinds
    obtain ⟨rfl, hanswer⟩ := Option.ite_none_right_eq_some.1 hfinds
    exact ⟨(hpasses.told rfl).symm.trans hanswer, rfl⟩
  | asked other =>
    have hfinds : (if other = path then cache.get? path else none) = some entry := hfinds
    exact ⟨(Option.ite_none_right_eq_some.1 hfinds).2, rfl⟩
  | _ => cases hfinds

/-- If no resolution is under way when calls begin, then none is when they are over. -/
theorem Calls.atRest (h : Calls time before moments after) (hrest : before.AtRest) :
    after.AtRest := by
  intro path flight hslot
  rcases h.leaves.origin hslot with ⟨hbefore, -⟩ | ⟨entry, hready, -⟩
  · exact hrest path flight hbefore
  · cases hready

theorem Calls.reentrant (h : Calls 0 before moments after) (hrest : before.AtRest) :
    Reentrant moments after where
  handled hmoments := by simpa using (h.handled hmoments).1
  runs hmoments := by simpa using (h.handled hmoments).2
  lasting hmoments hcached hno := by
    obtain ⟨_, -, -, hproceeds⟩ := proceeds_append.1 (hmoments ▸ h.proceeds)
    exact hproceeds.kept hcached hno
  same {front first between last rest path entry other} hmoments hfirst hlast hno := by
    have hall := hmoments ▸ h.proceeds
    obtain ⟨_, -, -, hproceeds⟩ := proceeds_append.1 hall
    have hcached := (hall.get?_of_finds? hfirst).1
    obtain ⟨hagain, hdrops⟩ := hproceeds.get?_of_finds? hlast
    have hkept := hproceeds.kept hcached (by simp [hno, hdrops])
    exact Option.some.inj (hagain.symm.trans hkept)
  distinct {front between rest path other before again} hmoments hfree := by
    obtain ⟨_, -, -, hproceeds⟩ := proceeds_append.1 (hmoments ▸ h.proceeds)
    -- The function of the first call starts next, with the next number in use.
    generalize hrest : between ++ ⟨.asked other, again⟩ :: rest = later at hmoments
    cases (h.handled hmoments).1 with
    | hit hcached =>
      rw [hfree] at hcached
      cases hcached
    | miss _ _ hnumber =>
      obtain ⟨-, hasked⟩ | ⟨others, rfl, -⟩ := List.append_eq_cons_iff.1 hrest
      · cases hasked
      · have hle := hproceeds.2.numbered
        rw [hnumber] at hle
        exact Nat.lt_of_succ_le hle
  atRest := h.atRest hrest

end ConfigCache

namespace CacheScript

/-- What happens when a script is carried out. -/
def history (script : CacheScript) (cache : ConfigCache) : List CacheMoment :=
  (script.run (cache, [])).2.2

/-- Functions that resolve configurations may use the cache, as long as nobody asks for what is
being resolved. However calls are nested, the function of a call is called once or not at all, no
pending slot is left behind, and what is published or removed while a function runs is neither lost
nor brought back when its call ends. -/
theorem reentrant_run (script : CacheScript) {cache : ConfigCache} (hrest : cache.AtRest)
    (hnever : NeverWaits (script.history cache)) :
    Reentrant (script.history cache) (script.run (cache, [])).2.1 := by
  obtain ⟨moments, hpast, hcalls⟩ := script.reaches_run (cache, [])
  have hhistory : script.history cache = moments := hpast
  rw [hhistory] at hnever ⊢
  exact (hcalls hnever).reentrant hrest

/-- All slots are removed by the function that resolves a configuration, which then asks for this
very configuration. Whoever asks later finds it. -/
def resolvingAnew : CacheScript :=
  let config : EffectiveConfig := .empty .root
  .fetch .root
    (.clear fun _ => .fetch .root (.done (.ok config)) fun _ => .get .root fun _ =>
      .done (.ok config))
    fun _ => .get .root fun _ => .fetch .root (.done (.ok config)) fun _ => .done (.ok config)

/-- What the second resolution came up with stays cached when the first one ends. -/
theorem reentrant_run_resolvingAnew :
    ConfigCache.empty.AtRest ∧ NeverWaits (resolvingAnew.history .empty) ∧
      (resolvingAnew.run (.empty, [])).2.1.get? .root = some ⟨1, .empty .root⟩ ∧
      Reentrant (resolvingAnew.history .empty) (resolvingAnew.run (.empty, [])).2.1 := by
  have hrest : ConfigCache.empty.AtRest := .empty
  have hnever : NeverWaits (resolvingAnew.history .empty) := by decide +kernel
  have hcached : (resolvingAnew.run (.empty, [])).2.1.get? .root = some ⟨1, .empty .root⟩ := by
    decide +kernel
  exact ⟨hrest, hnever, hcached, resolvingAnew.reentrant_run hrest hnever⟩

end CacheScript

end DocTree
