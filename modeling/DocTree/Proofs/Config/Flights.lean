import DocTree.Config.Callers
import DocTree.Proofs.Config.Resolving

/-!
# What happens while callers use the cache

The actions on a gathering are told apart by what happens in each of them: a caller looks its path
up and gets an answer, a resolution ends, slots are removed, or nothing happens that concerns the
slots. The history of a run has one happening for each action, so that the instants of a run are
positions in its history.

A resolution begins when its caller is given a slot, and ends when the caller comes back for the
slot. The function that resolves is called in between, where anything else may happen: other
callers take their steps, and slots are removed, be it by that very function.

## Main definitions

* `Happening`: what happens in an action, with `Gathering.happening` and `Gathering.history`.
* `Gathering.Moves`: the ways in which an action can go.
* `lastAnswer?`: the answer to the last look-up of a caller.

## Main results

* `Gathering.moves_step`: every action goes one of these ways.
* `Gathering.slot_of_moves`: where the slots that are found after an action come from.
* `Gathering.pending_of_moves`: what ends the wait for a slot.
-/

namespace DocTree

/-- What happens in an action. -/
inductive Happening where
  /-- A caller looks its path up. -/
  | looked (caller : Nat) (path : Path) (answer : CacheAnswer)
  /-- The resolution of a caller ends. -/
  | ended (caller : Nat) (path : Path) (flight : Flight)
      (result : Except ConfigError EffectiveConfig) (published : Option CacheEntry)
  /-- The slots at and below a path are removed, or all slots if there is none. -/
  | dropped (top : Option Path)
  /-- Nothing that concerns the slots. -/
  | other

namespace Happening

/-- Whether a slot for the path is removed. -/
def drops : Happening → Path → Bool
  | dropped top, path => top.all path.startsWith
  | _, _ => false

/-- The answer that a caller gets. -/
def answerTo? : Happening → Nat → Option CacheAnswer
  | looked caller _ answer, index => if caller = index then some answer else none
  | _, _ => none

end Happening

/-- The answer to the last look-up of a caller. -/
def lastAnswer? (past : List Happening) (index : Nat) : Option CacheAnswer :=
  (past.filterMap (·.answerTo? index)).getLast?

theorem lastAnswer?_looked (past : List Happening) (index : Nat) (path : Path)
    (answer : CacheAnswer) :
    lastAnswer? (past ++ [.looked index path answer]) index = some answer := by
  simp [lastAnswer?, Happening.answerTo?]

theorem lastAnswer?_concat (past : List Happening) {happening : Happening} {index : Nat}
    (h : happening.answerTo? index = none) :
    lastAnswer? (past ++ [happening]) index = lastAnswer? past index := by
  simp [lastAnswer?, h]

namespace Gathering

/-- What happens when a caller takes its next step. -/
def happeningTo (g : Gathering) (index : Nat) (caller : Caller)
    (result : Except ConfigError EffectiveConfig) : Happening :=
  match caller.stage with
  | .looking => .looked index caller.path (g.cache.request caller.path).1
  | .resolving flight =>
    .ended index caller.path flight result (g.cache.finish caller.path flight result).1
  | _ => .other

/-- What happens in an action. -/
def happening (g : Gathering) : CacheAction → Happening
  | .advance index result =>
    match g.callers[index]? with
    | some caller => g.happeningTo index caller result
    | none => .other
  | .invalidate path => .dropped (some path)
  | .clear => .dropped none

/-- What happens in several actions, one after another. -/
def history (g : Gathering) : List CacheAction → List Happening
  | [] => []
  | action :: rest => g.happening action :: (g.step action).history rest

/-- What happens at an instant of a run. -/
theorem getElem?_history (g : Gathering) (actions : List CacheAction) (time : Nat) :
    (g.history actions)[time]? = actions[time]?.map (g.run (actions.take time)).happening := by
  induction actions generalizing g time with
  | nil => rfl
  | cons action rest ih =>
    cases time with
    | zero => rfl
    | succ time => exact ih (g.step action) time

theorem run_take_succ (g : Gathering) {actions : List CacheAction} {time : Nat}
    {action : CacheAction} (h : actions[time]? = some action) :
    g.run (actions.take (time + 1)) = (g.run (actions.take time)).step action := by
  rw [List.take_add_one, h, run, List.foldl_append]
  rfl

/-! ### The ways an action can go -/

/-- The ways in which an action can go. -/
inductive Moves (g : Gathering) : Happening → Gathering → Prop where
  /-- A caller that waits goes on waiting, or one that has returned, or is not there, is called
  upon. -/
  | idle : Moves g .other g
  /-- A caller finds a configuration. -/
  | hit {index : Nat} {path : Path} {entry : CacheEntry}
      (hcaller : g.callers[index]? = some ⟨path, .looking⟩)
      (hslot : g.cache.slots.get? path = some (.ready entry)) :
      Moves g (.looked index path (.hit entry)) (g.setStage index (.returned (.ok entry)))
  /-- A caller finds a resolution under way. -/
  | joined {index : Nat} {path : Path} {flight : Flight}
      (hcaller : g.callers[index]? = some ⟨path, .looking⟩)
      (hslot : g.cache.slots.get? path = some (.pending flight)) :
      Moves g (.looked index path (.wait flight)) (g.setStage index (.waiting flight))
  /-- A caller finds nothing, and begins to resolve. -/
  | led {index : Nat} {path : Path} (hcaller : g.callers[index]? = some ⟨path, .looking⟩)
      (hslot : g.cache.slots.get? path = none) :
      Moves g (.looked index path (.lead g.cache.nextFlight))
        ({ g with
          cache := ⟨g.cache.slots.insert path (.pending g.cache.nextFlight),
            g.cache.nextFlight + 1⟩ }.setStage index (.resolving g.cache.nextFlight))
  /-- A resolution succeeds, and its slot is in place. -/
  | published {index : Nat} {path : Path} {flight : Flight} {config : EffectiveConfig}
      (hcaller : g.callers[index]? = some ⟨path, .resolving flight⟩)
      (hslot : g.cache.slots.get? path = some (.pending flight)) :
      Moves g (.ended index path flight (.ok config) (some ⟨flight, config⟩))
        ({ g with
          cache.slots := g.cache.slots.insert path (.ready ⟨flight, config⟩) }.setStage index
            (.announcing flight (some ⟨flight, config⟩) (.ok ⟨flight, config⟩)))
  /-- A resolution fails, and its slot is in place. -/
  | failed {index : Nat} {path : Path} {flight : Flight} {error : ConfigError}
      (hcaller : g.callers[index]? = some ⟨path, .resolving flight⟩)
      (hslot : g.cache.slots.get? path = some (.pending flight)) :
      Moves g (.ended index path flight (.error error) none)
        ({ g with cache.slots := g.cache.slots.erase path }.setStage index
          (.announcing flight none (.error error)))
  /-- A resolution ends, and its slot is gone. -/
  | superseded {index : Nat} {path : Path} {flight : Flight}
      {result : Except ConfigError EffectiveConfig}
      (hcaller : g.callers[index]? = some ⟨path, .resolving flight⟩)
      (hslot : g.cache.slots.get? path ≠ some (.pending flight)) :
      Moves g (.ended index path flight result none)
        (g.setStage index (.announcing flight none (result.map (⟨flight, ·⟩))))
  /-- A caller announces what it published, and returns. -/
  | announced {index : Nat} {path : Path} {flight : Flight} {published : Option CacheEntry}
      {result : Except ConfigError CacheEntry}
      (hcaller : g.callers[index]? = some ⟨path, .announcing flight published result⟩) :
      Moves g .other
        ({ g with outcomes := g.outcomes.set flight published }.setStage index (.returned result))
  /-- A caller gets what it has waited for. -/
  | woken {index : Nat} {path : Path} {flight : Flight} {entry : CacheEntry}
      (hcaller : g.callers[index]? = some ⟨path, .waiting flight⟩)
      (houtcome : g.outcomes.get? flight = some (some entry)) :
      Moves g .other (g.setStage index (.returned (.ok entry)))
  /-- A caller has waited for nothing, and looks again. -/
  | retried {index : Nat} {path : Path} {flight : Flight}
      (hcaller : g.callers[index]? = some ⟨path, .waiting flight⟩)
      (houtcome : g.outcomes.get? flight = some none) :
      Moves g .other (g.setStage index .looking)
  /-- Slots are removed. -/
  | dropped {top : Option Path} {slots : PathMap Slot}
      (hslots : ∀ path, slots.get? path =
        if (Happening.dropped top).drops path then none else g.cache.slots.get? path) :
      Moves g (.dropped top) { g with cache.slots := slots }

variable {g after : Gathering} {happening : Happening}

theorem moves_looking {index : Nat} {path : Path}
    (hcaller : g.callers[index]? = some ⟨path, .looking⟩)
    (result : Except ConfigError EffectiveConfig) :
    g.Moves (.looked index path (g.cache.request path).1)
      (g.advance index ⟨path, .looking⟩ result) := by
  unfold advance ConfigCache.request
  cases hslot : g.cache.slots.get? path with
  | none => exact .led hcaller hslot
  | some slot =>
    cases slot with
    | ready entry => exact .hit hcaller hslot
    | pending flight => exact .joined hcaller hslot

theorem moves_resolving {index : Nat} {path : Path} {flight : Flight}
    (hcaller : g.callers[index]? = some ⟨path, .resolving flight⟩)
    (result : Except ConfigError EffectiveConfig) :
    g.Moves (.ended index path flight result (g.cache.finish path flight result).1)
      (g.advance index ⟨path, .resolving flight⟩ result) := by
  unfold advance ConfigCache.finish
  by_cases hslot : g.cache.slots.get? path = some (.pending flight)
  · simp only [if_pos hslot]
    cases result with
    | ok config => exact .published hcaller hslot
    | error e => exact .failed hcaller hslot
  · simp only [if_neg hslot]
    exact .superseded hcaller hslot

/-- Every action goes one of these ways. -/
theorem moves_step (g : Gathering) (action : CacheAction) :
    g.Moves (g.happening action) (g.step action) := by
  cases action with
  | advance index result =>
    simp only [Gathering.happening, step]
    cases hcaller : g.callers[index]? with
    | none => exact .idle
    | some caller =>
      obtain ⟨path, stage⟩ := caller
      cases stage with
      | looking => exact moves_looking hcaller result
      | resolving flight => exact moves_resolving hcaller result
      | announcing flight published result => exact .announced hcaller
      | waiting flight =>
        simp only [happeningTo, advance]
        cases houtcome : g.outcomes.get? flight with
        | none => exact .idle
        | some outcome =>
          cases outcome with
          | some entry => exact .woken hcaller houtcome
          | none => exact .retried hcaller houtcome
      | returned result => exact .idle
  | invalidate path => exact .dropped (g.cache.get?_slots_invalidate path)
  | clear => exact .dropped fun _ => rfl

/-! ### What an action leaves -/

/-- A caller after the stage of one has been replaced. -/
theorem getElem?_callers_setStage {index other : Nat} {stage : CallerStage} {caller : Caller}
    (h : (g.setStage index stage).callers[other]? = some caller) :
    if index = other then ∃ old, g.callers[index]? = some old ∧ caller = ⟨old.path, stage⟩
    else g.callers[other]? = some caller := by
  rw [setStage, List.getElem?_modify] at h
  obtain ⟨old, hold, heq⟩ := Option.map_eq_some_iff.1 h
  split at heq
  next hsame =>
    subst hsame
    rw [if_pos rfl]
    exact ⟨old, hold, heq.symm⟩
  next hne =>
    rw [if_neg hne, hold, ← heq]

/-- Where a slot that is found after an action comes from. -/
inductive SlotOrigin (g : Gathering) (path : Path) : Happening → Slot → Prop where
  /-- It was there, and was not removed. -/
  | kept {happening : Happening} {slot : Slot} (hslot : g.cache.slots.get? path = some slot)
      (hdrops : happening.drops path = false) : SlotOrigin g path happening slot
  /-- A resolution begins. -/
  | begun {index : Nat} :
      SlotOrigin g path (.looked index path (.lead g.cache.nextFlight))
        (.pending g.cache.nextFlight)
  /-- A resolution is published. -/
  | published {index : Nat} {flight : Flight} {config : EffectiveConfig}
      (hcaller : g.callers[index]? = some ⟨path, .resolving flight⟩)
      (hslot : g.cache.slots.get? path = some (.pending flight)) :
      SlotOrigin g path (.ended index path flight (.ok config) (some ⟨flight, config⟩))
        (.ready ⟨flight, config⟩)

/-- A slot that is found after an action was there, or belongs to a resolution that begins or is
published. -/
theorem slot_of_moves (h : g.Moves happening after) {path : Path} {slot : Slot}
    (hslot : after.cache.slots.get? path = some slot) : g.SlotOrigin path happening slot := by
  cases h with
  | idle | hit | joined | superseded | announced | woken | retried => exact .kept hslot rfl
  | @led index looked _ _ =>
    have hfound : (g.cache.slots.insert looked (.pending g.cache.nextFlight)).get? path =
        some slot := hslot
    rw [PathMap.get?_insert] at hfound
    split at hfound
    next heq =>
      subst heq
      cases hfound
      exact .begun
    · exact .kept hfound rfl
  | @published index resolved flight config hcaller hpending =>
    have hfound : (g.cache.slots.insert resolved (.ready ⟨flight, config⟩)).get? path =
        some slot := hslot
    rw [PathMap.get?_insert] at hfound
    split at hfound
    next heq =>
      subst heq
      cases hfound
      exact .published hcaller hpending
    · exact .kept hfound rfl
  | @failed index resolved _ _ _ _ =>
    have hfound : (g.cache.slots.erase resolved).get? path = some slot := hslot
    rw [PathMap.get?_erase] at hfound
    split at hfound
    · cases hfound
    · exact .kept hfound rfl
  | dropped hslots =>
    have hfound := (hslots path).symm.trans hslot
    split at hfound
    · cases hfound
    next hdrops => exact .kept hfound (Bool.eq_false_iff.2 hdrops)

/-- A pending slot stays pending until it is removed or its resolution ends. -/
theorem pending_of_moves (h : g.Moves happening after) {path : Path} {flight : Flight}
    (hslot : g.cache.slots.get? path = some (.pending flight)) :
    after.cache.slots.get? path = some (.pending flight) ∨ happening.drops path = true ∨
      ∃ index result published, happening = .ended index path flight result published := by
  cases h with
  | idle | hit | joined | superseded | announced | woken | retried => exact .inl hslot
  | @led index looked _ hfree =>
    refine .inl ((PathMap.get?_insert ..).trans ((if_neg ?_).trans hslot))
    rintro rfl
    rw [hfree] at hslot
    cases hslot
  | @published index resolved _ _ _ hpending =>
    by_cases hsame : resolved = path
    · subst hsame
      cases hpending.symm.trans hslot
      exact .inr (.inr ⟨_, _, _, rfl⟩)
    · exact .inl ((PathMap.get?_insert ..).trans ((if_neg hsame).trans hslot))
  | @failed index resolved _ _ _ hpending =>
    by_cases hsame : resolved = path
    · subst hsame
      cases hpending.symm.trans hslot
      exact .inr (.inr ⟨_, _, _, rfl⟩)
    · exact .inl ((PathMap.get?_erase ..).trans ((if_neg hsame).trans hslot))
  | @dropped top _ hslots =>
    cases hdrops : (Happening.dropped top).drops path with
    | true => exact .inr (.inl rfl)
    | false =>
      refine .inl ((hslots path).trans ?_)
      rw [hdrops, hslot]
      rfl

/-- A caller that begins to resolve has found nothing. Its resolution gets the next number, and its
slot is pending. -/
theorem led_of_moves {index : Nat} {path : Path} {flight : Flight}
    (h : g.Moves (.looked index path (.lead flight)) after) :
    g.cache.slots.get? path = none ∧ flight = g.cache.nextFlight ∧
      flight < after.cache.nextFlight ∧
      after.cache.slots.get? path = some (.pending flight) := by
  cases h with
  | led _ hfree =>
    exact ⟨hfree, rfl, Nat.lt_succ_self _, (PathMap.get?_insert ..).trans (if_pos rfl)⟩

/-- The number of the next resolution grows with each that begins. -/
theorem nextFlight_le_of_moves (h : g.Moves happening after) :
    g.cache.nextFlight ≤ after.cache.nextFlight := by
  cases h with
  | led => exact Nat.le_succ _
  | _ => exact Nat.le_refl _

/-- What was announced was announced before, or a caller has just announced it. -/
theorem outcome_of_moves (h : g.Moves happening after) {flight : Flight}
    {outcome : Option CacheEntry} (houtcome : after.outcomes.get? flight = some outcome) :
    g.outcomes.get? flight = some outcome ∨
      ∃ (index : Nat) (path : Path) (result : Except ConfigError CacheEntry),
        g.callers[index]? = some ⟨path, .announcing flight outcome result⟩ := by
  cases h with
  | @announced index path announcing published result hcaller =>
    have hset : (g.outcomes.set announcing published).get? flight = some outcome := houtcome
    rw [Table.get?_set] at hset
    split at hset
    next heq =>
      subst heq
      cases hset
      exact .inr ⟨index, path, result, hcaller⟩
    · exact .inl hset
  | _ => exact .inl houtcome

/-- A configuration that a resolution publishes is cached. -/
theorem get?_of_published {index : Nat} {path : Path} {flight : Flight}
    {result : Except ConfigError EffectiveConfig} {entry : CacheEntry}
    (h : g.Moves (.ended index path flight result (some entry)) after) :
    after.cache.get? path = some entry := by
  cases h with
  | published =>
    refine ConfigCache.get?_eq_some_iff.2 ?_
    exact (PathMap.get?_insert ..).trans (if_pos rfl)

end Gathering

end DocTree
