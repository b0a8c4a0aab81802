/-!
# Durations and instants

Time in whole nanoseconds. The platform counts the seconds since the epoch in a signed 64-bit
number, so there are instants before the epoch as well, and there is a latest one. An addition can
fail.

## Main definitions

* `Duration` and `Instant`: amounts and points of time.
* `Instant.sinceEpoch?`: the amount of time since the epoch, for an instant that is not before it.
* `Instant.add?`: addition that fails beyond the latest instant.
* `Instant.addSaturating`: addition that stops at the latest instant, by ever smaller steps.
* `SteppedClock`: a clock that moves only when it is told to, with `SteppedClock.reading?` and
  `SteppedClock.now`.
-/

namespace DocTree

/-- An amount of time in whole nanoseconds. -/
structure Duration where
  /-- The number of nanoseconds. -/
  nanos : Nat
  deriving DecidableEq, Repr, Inhabited

namespace Duration

/-- The number of nanoseconds in a second. -/
def nanosPerSecond : Nat := 1000000000

/-- The number of nanoseconds in a millisecond. -/
def nanosPerMilli : Nat := 1000000

/-- Seconds and nanoseconds as one amount; the nanoseconds may exceed a second. -/
def ofParts (seconds nanos : Nat) : Duration :=
  ⟨seconds * nanosPerSecond + nanos⟩

/-- A number of whole seconds. -/
def ofSeconds (seconds : Nat) : Duration :=
  ofParts seconds 0

/-- A number of whole milliseconds. -/
def ofMillis (millis : Nat) : Duration :=
  ⟨millis * nanosPerMilli⟩

/-- The whole seconds of an amount. -/
def seconds (d : Duration) : Nat :=
  d.nanos / nanosPerSecond

/-- The nanoseconds beyond the whole seconds. -/
def subsecNanos (d : Duration) : Nat :=
  d.nanos % nanosPerSecond

/-- The whole milliseconds of an amount. -/
def millis (d : Duration) : Nat :=
  d.nanos / nanosPerMilli

/-- The whole seconds of an amount as a 64-bit number; what exceeds 64 bits becomes the greatest
such number. -/
def seconds64 (d : Duration) : UInt64 :=
  UInt64.ofNat (min d.seconds (UInt64.size - 1))

end Duration

/-- The epoch, in nanoseconds after the earliest instant: there are 2 ^ 63 seconds in between. -/
def epochNanos : Nat :=
  9223372036854775808 * Duration.nanosPerSecond

/-- The latest instant, in nanoseconds after the earliest one: the last nanosecond of the last of
2 ^ 64 seconds. -/
def latestNanos : Nat :=
  18446744073709551615 * Duration.nanosPerSecond + 999999999

/-- A point of time from the earliest representable one to the latest. -/
structure Instant where
  /-- The nanoseconds since the earliest instant. -/
  nanos : Nat
  /-- The instant is not after the latest one. -/
  le_latest : nanos ≤ latestNanos
  deriving DecidableEq, Repr

namespace Instant

/-- The instant that written times are counted from. -/
def epoch : Instant :=
  ⟨epochNanos, by decide⟩

/-- The latest instant. -/
def latest : Instant :=
  ⟨latestNanos, Nat.le_refl _⟩

instance : Inhabited Instant := ⟨epoch⟩

/-- The instant an amount of time after another, unless it would be after the latest one. -/
def add? (t : Instant) (d : Duration) : Option Instant :=
  if h : t.nanos + d.nanos ≤ latestNanos then some ⟨t.nanos + d.nanos, h⟩ else none

/-- The amount of time from `earlier` to `t`, or zero if `t` is the earlier one. -/
def since (t earlier : Instant) : Duration :=
  ⟨t.nanos - earlier.nanos⟩

/-- The amount of time since the epoch, or zero if `t` is before it. -/
def sinceEpoch (t : Instant) : Duration :=
  t.since epoch

/-- The amount of time since the epoch, unless `t` is before it. -/
def sinceEpoch? (t : Instant) : Option Duration :=
  if epoch.nanos ≤ t.nanos then some t.sinceEpoch else none

/-- A sum that fits is the later of the two instants by the whole amount. -/
theorem nanos_of_add?_eq_some {t later : Instant} {d : Duration} (h : t.add? d = some later) :
    later.nanos = t.nanos + d.nanos := by
  unfold add? at h
  split at h
  · exact (congrArg nanos (Option.some.inj h)).symm
  · cases h

/-- An instant that is not before the epoch is as long after it as is said. -/
theorem add?_sinceEpoch {t : Instant} (h : epoch.nanos ≤ t.nanos) :
    epoch.add? t.sinceEpoch = some t := by
  have hsum : epoch.nanos + t.sinceEpoch.nanos = t.nanos := Nat.add_sub_cancel' h
  have hfits : epoch.nanos + t.sinceEpoch.nanos ≤ latestNanos := by
    rw [hsum]
    exact t.le_latest
  rw [add?, dif_pos hfits]
  simp only [hsum]

/-- Adds `step` as long as the sum is representable, then half of it, and so on until nothing is
left to add. -/
def climb (t : Instant) (step : Duration) : Instant :=
  -- Halving never skips the end: a step of one nanosecond is tried before none is left.
  if step.nanos = 0 then t
  else
    match _h : t.add? step with
    | some later => climb later step
    | none => climb t ⟨step.nanos / 2⟩
termination_by latestNanos - t.nanos + step.nanos
decreasing_by
  · have := nanos_of_add?_eq_some _h
    have := later.le_latest
    omega
  · show _ + step.nanos / 2 < _
    omega

/-- The instant an amount of time after another, or the latest one. -/
def addSaturating (t : Instant) (d : Duration) : Instant :=
  match t.add? d with
  | some later => later
  | none => climb t d

end Instant

/-- A clock that stands still until it is advanced. It counts whole milliseconds in 64 bits. -/
structure SteppedClock where
  /-- Where the clock stood at first. -/
  base : Instant
  /-- The milliseconds it was advanced since. -/
  elapsed : UInt64
  deriving DecidableEq

namespace SteppedClock

/-- A clock standing at `base`. -/
def startingAt (base : Instant) : SteppedClock :=
  ⟨base, 0⟩

instance : Inhabited SteppedClock := ⟨startingAt .epoch⟩

/-- What the clock shows, unless it was advanced past the latest instant. -/
def reading? (clock : SteppedClock) : Option Instant :=
  clock.base.add? (.ofMillis clock.elapsed.toNat)

/-- The current instant. A clock that shows nothing must not be read: the latest instant is given
for it, so that reading is total. -/
def now (clock : SteppedClock) : Instant :=
  clock.base.addSaturating (.ofMillis clock.elapsed.toNat)

/-- The current instant is what the clock shows. -/
theorem now_of_reading? {clock : SteppedClock} {t : Instant} (h : clock.reading? = some t) :
    clock.now = t := by
  have hsum : clock.base.add? (.ofMillis clock.elapsed.toNat) = some t := h
  rw [now, Instant.addSaturating, hsum]

/-- A clock that does not start after the epoch shows something however it is advanced: 64 bits of
milliseconds do not reach the latest instant. -/
theorem exists_reading? {clock : SteppedClock} (h : clock.base.nanos ≤ epochNanos) :
    ∃ t, clock.reading? = some t := by
  have helapsed : clock.elapsed.toNat < 2 ^ 64 := clock.elapsed.toNat_lt
  have hfits : clock.base.nanos + clock.elapsed.toNat * Duration.nanosPerMilli ≤ latestNanos := by
    unfold epochNanos Duration.nanosPerSecond at h
    unfold latestNanos Duration.nanosPerSecond Duration.nanosPerMilli
    omega
  exact ⟨_, dif_pos hfits⟩

/-- Advances the clock by the whole milliseconds of an amount, at most the greatest 64-bit number
of them. -/
def advance (clock : SteppedClock) (d : Duration) : SteppedClock :=
  { clock with elapsed := clock.elapsed + UInt64.ofNat (min d.millis (UInt64.size - 1)) }

end SteppedClock

end DocTree
