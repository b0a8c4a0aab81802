import DocTree.Proofs.Config.Resolving

/-!
# What happens while resolutions use the cache

A function that resolves a configuration may use the cache itself: look for other configurations,
remove slots, its own included, and ask for configurations, which other functions resolve in turn.
A script is such a use of the cache, as the tree of calls that it consists of. What happens when it
is carried out is noted down, moment by moment, with the cache as it is then.

A call is known by the instant at which it was made, which is its position in what has happened.
Functions run one at a time, so a function that asks for a configuration whose resolution is under
way would wait for it without end.

## Main definitions

* `CacheEvent` and `CacheMoment`: what is noted down.
* `CacheScript` and `CacheScript.run`: uses of a cache, and what comes of them.
* `NeverWaits`: nobody asks for a configuration whose resolution is under way.
* `ConfigCache.Calls`: the ways in which calls can go.

## Main results

* `CacheInUse.reaches_fetch`: asking for a configuration goes one of these ways.
* `CacheScript.reaches_run`: so does whatever a script does.
-/

namespace DocTree

/-! ### What is noted down -/

/-- Something that happens when a cache is used. -/
inductive CacheEvent where
  /-- A configuration is looked for, and not resolved if it is not there. -/
  | got (path : Path) (answer : Option CacheEntry)
  /-- The slots at and below a path are removed, or all slots if there is none. -/
  | dropped (top : Option Path)
  /-- A configuration is asked for. -/
  | asked (path : Path)
  /-- The function of a call starts. -/
  | began (call : Nat)
  /-- The function of a call returns. -/
  | ended (call : Nat) (result : Except ConfigError EffectiveConfig)
  /-- A call is answered. -/
  | answered (call : Nat) (answer : Except ConfigError CacheEntry)

namespace CacheEvent

/-- Whether a slot for the path is removed. -/
def drops : CacheEvent → Path → Bool
  | dropped top, path => top.all path.startsWith
  | _, _ => false

/-- The call that something happens in the course of. -/
def call? : CacheEvent → Option Nat
  | began call | ended call _ | answered call _ => some call
  | _ => none

/-- Whether the function of a call starts. -/
def begins : CacheEvent → Nat → Bool
  | began call, other => call == other
  | _, _ => false

theorem call?_of_begins {event : CacheEvent} {call : Nat} (h : event.begins call = true) :
    event.call? = some call := by
  cases event with
  | began number => exact congrArg some (eq_of_beq h)
  | _ => cases h

end CacheEvent

/-- Something that happens, and the cache as it is afterwards. -/
structure CacheMoment where
  /-- What happens. -/
  event : CacheEvent
  /-- The cache. -/
  cache : ConfigCache

/-- Whether a configuration is asked for whose resolution is under way. -/
def CacheMoment.waits (moment : CacheMoment) : Bool :=
  match moment.event with
  | .asked path => (moment.cache.slots.get? path).any (!ConfigCache.isReady ·)
  | _ => false

theorem CacheMoment.waits_asked {cache : ConfigCache} {path : Path} {flight : Flight}
    (h : cache.slots.get? path = some (.pending flight)) :
    CacheMoment.waits ⟨.asked path, cache⟩ = true := by
  simp [waits, h, ConfigCache.isReady]

/-- Nobody asks for a configuration whose resolution is under way. -/
def NeverWaits (moments : List CacheMoment) : Prop :=
  ∀ moment ∈ moments, moment.waits = false

instance (moments : List CacheMoment) : Decidable (NeverWaits moments) :=
  inferInstanceAs (Decidable (∀ moment ∈ moments, moment.waits = false))

/-- A slot for the path is removed. -/
def Dropped (moments : List CacheMoment) (path : Path) : Prop :=
  ∃ moment ∈ moments, moment.event.drops path = true

@[simp]
theorem neverWaits_append {moments more : List CacheMoment} :
    NeverWaits (moments ++ more) ↔ NeverWaits moments ∧ NeverWaits more := by
  simp [NeverWaits, or_imp, forall_and]

@[simp]
theorem neverWaits_cons {moment : CacheMoment} {moments : List CacheMoment} :
    NeverWaits (moment :: moments) ↔ moment.waits = false ∧ NeverWaits moments := by
  simp [NeverWaits]

@[simp]
theorem not_dropped_nil (path : Path) : ¬Dropped [] path := by
  simp [Dropped]

@[simp]
theorem dropped_cons {moment : CacheMoment} {moments : List CacheMoment} {path : Path} :
    Dropped (moment :: moments) path ↔ moment.event.drops path = true ∨ Dropped moments path := by
  simp [Dropped]

@[simp]
theorem dropped_append {moments more : List CacheMoment} {path : Path} :
    Dropped (moments ++ more) path ↔ Dropped moments path ∨ Dropped more path := by
  simp [Dropped, or_and_right, exists_or]

/-! ### Scripts -/

/-- A cache in use, and what has happened so far. -/
abbrev CacheInUse := ConfigCache × List CacheMoment

namespace CacheInUse

/-- Notes down that something has happened. -/
def note (event : CacheEvent) (state : CacheInUse) : CacheInUse :=
  (state.1, state.2 ++ [⟨event, state.1⟩])

/-- Looks for the configuration of a path. -/
def get (path : Path) (state : CacheInUse) : CacheInUse :=
  state.note (.got path (state.1.get? path))

/-- Removes the slots at and below a path. -/
def invalidate (path : Path) (state : CacheInUse) : CacheInUse :=
  note (.dropped (some path)) ((state.1.invalidate path).2, state.2)

/-- Removes every slot. -/
def clear (state : CacheInUse) : CacheInUse :=
  note (.dropped none) (state.1.clear, state.2)

/-- Calls the function of a call. -/
def resolve (function : CacheInUse → Except ConfigError EffectiveConfig × CacheInUse) (call : Nat)
    (state : CacheInUse) : Except ConfigError EffectiveConfig × CacheInUse :=
  let (result, state) := function (state.note (.began call))
  (result, state.note (.ended call result))

/-- Asks for the configuration of a path, with a function that resolves it. -/
def fetch (path : Path) (function : CacheInUse → Except ConfigError EffectiveConfig × CacheInUse)
    (state : CacheInUse) : CacheInUse :=
  let (answer, after) :=
    ConfigCache.fetch path (resolve function state.2.length) (state.note (.asked path))
  note (.answered state.2.length answer) after

end CacheInUse

/-- A use of a cache. What is done next may depend on everything that has happened so far, be it in
this script or in another one. -/
inductive CacheScript where
  /-- The end, with a configuration or an error. -/
  | done (result : Except ConfigError EffectiveConfig)
  /-- Looks for the configuration of a path. -/
  | get (path : Path) (next : List CacheMoment → CacheScript)
  /-- Removes the slots at and below a path. -/
  | invalidate (path : Path) (next : List CacheMoment → CacheScript)
  /-- Removes every slot. -/
  | clear (next : List CacheMoment → CacheScript)
  /-- Asks for the configuration of a path, with a script as the function that resolves it. -/
  | fetch (path : Path) (resolve : CacheScript) (next : List CacheMoment → CacheScript)

/-- Carries a script out. -/
def CacheScript.run : CacheScript → CacheInUse →
    Except ConfigError EffectiveConfig × CacheInUse
  | done result, state => (result, state)
  | get path next, state =>
    let state := state.get path
    (next state.2).run state
  | invalidate path next, state =>
    let state := state.invalidate path
    (next state.2).run state
  | clear next, state =>
    let state := state.clear
    (next state.2).run state
  | fetch path resolve next, state =>
    let state := state.fetch path resolve.run
    (next state.2).run state

namespace ConfigCache

/-! ### Calls -/

/-- The ways in which calls can go, one after another, from an instant on: what happens, and the
cache before and after it. -/
inductive Calls : Nat → ConfigCache → List CacheMoment → ConfigCache → Prop where
  /-- Nothing happens. -/
  | nil {time : Nat} {cache : ConfigCache} : Calls time cache [] cache
  /-- Some things happen, and then others. -/
  | append {time : Nat} {cache between after : ConfigCache} {moments more : List CacheMoment}
      (hfirst : Calls time cache moments between)
      (hmore : Calls (time + moments.length) between more after) :
      Calls time cache (moments ++ more) after
  /-- A configuration is looked for. -/
  | got {time : Nat} {cache : ConfigCache} {path : Path} :
      Calls time cache [⟨.got path (cache.get? path), cache⟩] cache
  /-- Slots are removed. -/
  | dropped {time : Nat} {cache : ConfigCache} {top : Option Path} {slots : PathMap Slot}
      (hslots : ∀ path, slots.get? path =
        if (CacheEvent.dropped top).drops path then none else cache.slots.get? path) :
      Calls time cache [⟨.dropped top, { cache with slots }⟩] { cache with slots }
  /-- A configuration is asked for that is there. -/
  | hit {time : Nat} {cache : ConfigCache} {path : Path} {entry : CacheEntry}
      (hslot : cache.slots.get? path = some (.ready entry)) :
      Calls time cache [⟨.asked path, cache⟩, ⟨.answered time (.ok entry), cache⟩] cache
  /-- A configuration is asked for that has no slot, and a function resolves it. -/
  | miss {time : Nat} {cache resolved : ConfigCache} {path : Path} {inner : List CacheMoment}
      {result : Except ConfigError EffectiveConfig}
      (hslot : cache.slots.get? path = none)
      (hinner : Calls (time + 2) (cache.lead path) inner resolved) :
      Calls time cache
        (⟨.asked path, cache⟩ :: ⟨.began time, cache.lead path⟩ :: (inner ++
          [⟨.ended time result, resolved⟩,
            ⟨.answered time (result.map (⟨cache.nextFlight, ·⟩)),
              (resolved.finish path cache.nextFlight result).2⟩]))
        (resolved.finish path cache.nextFlight result).2

end ConfigCache

/-! ### Runs -/

namespace CacheInUse

/-- What has happened since goes one of these ways, unless a configuration is asked for whose
resolution is under way. -/
def Reaches (state after : CacheInUse) : Prop :=
  ∃ moments, after.2 = state.2 ++ moments ∧
    (NeverWaits moments → ConfigCache.Calls state.2.length state.1 moments after.1)

theorem Reaches.trans {state between after : CacheInUse} (h : state.Reaches between)
    (hmore : between.Reaches after) : state.Reaches after := by
  obtain ⟨moments, hpast, hcalls⟩ := h
  obtain ⟨more, hlater, hcallsMore⟩ := hmore
  refine ⟨moments ++ more, ?_, fun hnever => ?_⟩
  · rw [hlater, hpast, List.append_assoc]
  · rw [neverWaits_append] at hnever
    rw [hpast, List.length_append] at hcallsMore
    exact (hcalls hnever.1).append (hcallsMore hnever.2)

theorem reaches_get (state : CacheInUse) (path : Path) : state.Reaches (state.get path) :=
  ⟨_, rfl, fun _ => .got⟩

theorem reaches_invalidate (state : CacheInUse) (path : Path) :
    state.Reaches (state.invalidate path) :=
  ⟨_, rfl, fun _ => .dropped (state.1.get?_slots_invalidate path)⟩

theorem reaches_clear (state : CacheInUse) : state.Reaches state.clear :=
  ⟨_, rfl, fun _ => .dropped fun _ => rfl⟩

variable {function : CacheInUse → Except ConfigError EffectiveConfig × CacheInUse}

/-- What happens between the start of a function and its return goes one of these ways if what the
function does goes one of them. -/
theorem exists_resolve (hfunction : ∀ state : CacheInUse, state.Reaches (function state).2)
    (call : Nat) (cache : ConfigCache) (past : List CacheMoment) :
    ∃ result resolved inner,
      resolve function call (cache, past) =
        (result, (resolved,
          past ++ ⟨.began call, cache⟩ :: (inner ++ [⟨.ended call result, resolved⟩]))) ∧
      (NeverWaits inner → ConfigCache.Calls (past.length + 1) cache inner resolved) := by
  obtain ⟨inner, hpast, hcalls⟩ := hfunction (note (.began call) (cache, past))
  rw [resolve]
  generalize function (note (.began call) (cache, past)) = response at hpast hcalls ⊢
  obtain ⟨result, resolved, later⟩ := response
  refine ⟨result, resolved, inner, ?_, fun hnever => ?_⟩
  · have hlater : later = past ++ [⟨.began call, cache⟩] ++ inner := hpast
    simp [note, hlater]
  · simpa [note] using hcalls hnever

/-- Asking for a configuration goes one of these ways if what its function does goes one of them. -/
theorem reaches_fetch (hfunction : ∀ state : CacheInUse, state.Reaches (function state).2)
    (state : CacheInUse) (path : Path) : state.Reaches (state.fetch path function) := by
  obtain ⟨cache, past⟩ := state
  have hasked : note (.asked path) (cache, past) = (cache, past ++ [⟨.asked path, cache⟩]) := rfl
  unfold fetch
  rw [hasked]
  cases hslot : cache.slots.get? path with
  | none =>
    obtain ⟨result, resolved, inner, hresolve, hinner⟩ := exists_resolve hfunction past.length
      (cache.lead path) (past ++ [⟨.asked path, cache⟩])
    rw [List.length_append] at hinner
    rw [ConfigCache.fetch_of_free hslot, hresolve]
    refine ⟨_, ?_, fun hnever => .miss hslot (hinner ?_)⟩
    · simp [note]
    · simp only [neverWaits_cons, neverWaits_append] at hnever
      exact hnever.2.2.1
  | some slot =>
    cases slot with
    | ready entry =>
      rw [ConfigCache.fetch_of_ready hslot]
      exact ⟨[_, _], List.append_assoc .., fun _ => .hit hslot⟩
    | pending flight =>
      -- The function is called as well, but this is ruled out.
      obtain ⟨result, resolved, inner, hresolve, -⟩ := exists_resolve hfunction past.length
        (cache.start.2) (past ++ [⟨.asked path, cache⟩])
      simp only [ConfigCache.fetch, ConfigCache.request, hslot, hresolve, note, List.append_assoc,
        List.singleton_append]
      refine ⟨_, rfl, fun hnever => ?_⟩
      rw [List.cons_append, neverWaits_cons, CacheMoment.waits_asked hslot] at hnever
      cases hnever.1

end CacheInUse

/-- Whatever a script does goes one of these ways, unless it asks for a configuration whose
resolution is under way. -/
theorem CacheScript.reaches_run (script : CacheScript) (state : CacheInUse) :
    state.Reaches (script.run state).2 := by
  -- The function of a call is a script that is part of the script that makes the call.
  induction script generalizing state with
  | done result => exact ⟨[], (List.append_nil _).symm, fun _ => .nil⟩
  | get path next ih => exact (state.reaches_get path).trans (ih _ _)
  | invalidate path next ih => exact (state.reaches_invalidate path).trans (ih _ _)
  | clear next ih => exact state.reaches_clear.trans (ih _ _)
  | fetch path resolve next ihresolve ihnext =>
    exact (CacheInUse.reaches_fetch ihresolve state path).trans (ihnext _ _)

end DocTree
