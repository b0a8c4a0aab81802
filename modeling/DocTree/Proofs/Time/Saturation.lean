import Mathlib.Data.Nat.Size
import Mathlib.Logic.Function.Iterate
import DocTree.Time

/-!
# Sums that stop at the latest instant

The sum of an instant and an amount of time may be after the latest instant. Then a step, at first
the whole amount, is added as often as the sum is representable, halved, added again, and so on
until nothing is left of it. This ends at the latest instant, and it ends soon.

A turn either halves the step or leaves it as it is and moves on, so the step alone does not tell
how many turns are left. What carries the proof is that the latest instant is never more than two
steps away, however the halves are rounded. So at most two additions come before the next halving,
and no distance is left where nothing is left of the step.

## Main definitions

* `Instant.Climb` and `Instant.Climb.next`: the loop under way, and one turn of it.
* `Instant.Climb.Near`: the invariant.
* `Instant.Climb.potential`: a bound on the turns that are left.

## Main results

* `Instant.Climb.Near.next` and `Instant.Climb.Near.potential_next_lt`: what a turn keeps, and what
  it uses up.
* `Instant.Climb.Near.exists_turns`: a climb ends.
* `Instant.nanos_addSaturating`: the sum of an instant and an amount of time.
* `Instant.addSaturating_in_turns`: the sum, and the turns in which it is found.
-/

namespace DocTree.Instant

/-- There is no sum exactly if it would be after the latest instant. -/
theorem add?_eq_none_iff {t : Instant} {d : Duration} :
    t.add? d = none ↔ latestNanos < t.nanos + d.nanos := by
  simp [add?]

/-- The loop that looks for the latest instant, under way. -/
structure Climb where
  /-- The instant that has been reached. -/
  reached : Instant
  /-- What is to be added. -/
  step : Duration

namespace Climb

/-- One turn: the step is added if the sum is representable, and halved otherwise. -/
def next (climb : Climb) : Climb :=
  match climb.reached.add? climb.step with
  | some later => { climb with reached := later }
  | none => { climb with step := ⟨climb.step.nanos / 2⟩ }

/-- How far away the latest instant is, in nanoseconds. -/
def gap (climb : Climb) : Nat :=
  latestNanos - climb.reached.nanos

/-- The latest instant is at most two steps away. -/
def Near (climb : Climb) : Prop :=
  climb.gap ≤ 2 * climb.step.nanos

/-- A bound on the turns that are left: a halving and two additions for each binary digit of the
step, and the additions before the next halving. -/
def potential (climb : Climb) : Nat :=
  3 * climb.step.nanos.size + climb.gap / climb.step.nanos

variable {climb : Climb}

/-! ### One turn -/

/-- A step that fits into the gap is added. -/
theorem next_of_le (h : climb.step.nanos ≤ climb.gap) :
    climb.next.step = climb.step ∧ climb.next.gap + climb.step.nanos = climb.gap := by
  have hlatest := climb.reached.le_latest
  unfold next
  split
  next later hlater =>
    have hnanos := nanos_of_add?_eq_some hlater
    unfold gap at h ⊢
    exact ⟨rfl, by dsimp only; omega⟩
  next hnone =>
    rw [add?_eq_none_iff] at hnone
    unfold gap at h
    omega

/-- A step that does not fit into the gap is halved. -/
theorem next_of_lt (h : climb.gap < climb.step.nanos) :
    climb.next = ⟨climb.reached, ⟨climb.step.nanos / 2⟩⟩ := by
  have hnone : climb.reached.add? climb.step = none := by
    rw [add?_eq_none_iff]
    unfold gap at h
    omega
  rw [next, hnone]

theorem Near.next (h : climb.Near) : climb.next.Near := by
  unfold Near at h ⊢
  rcases Nat.lt_or_ge climb.gap climb.step.nanos with hlt | hle
  · -- The step exceeds the gap by a nanosecond at least, which makes up for the rounding.
    rw [next_of_lt hlt]
    have hgap : gap ⟨climb.reached, ⟨climb.step.nanos / 2⟩⟩ = climb.gap := rfl
    rw [hgap]
    dsimp only
    omega
  · obtain ⟨hstep, hgap⟩ := next_of_le hle
    rw [hstep]
    omega

/-- A number that is halved has fewer binary digits. -/
theorem size_half_lt {n : Nat} (h : n ≠ 0) : (n / 2).size < n.size := by
  obtain ⟨size, hsize⟩ := Nat.exists_eq_succ_of_ne_zero (mt Nat.size_eq_zero.1 h)
  have hlt : n < 2 ^ (size + 1) := by
    rw [← Nat.succ_eq_add_one, ← hsize]
    exact Nat.lt_size_self n
  have hhalf : (n / 2).size ≤ size := by
    rw [Nat.size_le]
    omega
  omega

theorem Near.potential_next_lt (h : climb.Near) (hstep : climb.step.nanos ≠ 0) :
    climb.next.potential < climb.potential := by
  rcases Nat.lt_or_ge climb.gap climb.step.nanos with hlt | hle
  · -- A halving takes a digit away, and two additions may follow.
    have hsize := size_half_lt hstep
    have htwo : climb.next.gap / climb.next.step.nanos ≤ 2 := Nat.div_le_of_le_mul (by
      rw [Nat.mul_comm]
      exact h.next)
    rw [next_of_lt hlt] at htwo ⊢
    unfold potential
    rw [Nat.div_eq_of_lt hlt]
    dsimp only at htwo ⊢
    omega
  · obtain ⟨hsame, hgap⟩ := next_of_le hle
    unfold potential
    rw [hsame, ← hgap, Nat.add_div_right _ (Nat.pos_of_ne_zero hstep)]
    omega

/-- A turn does not change where the climb leads. -/
theorem climb_next (hstep : climb.step.nanos ≠ 0) :
    climb.next.reached.climb climb.next.step = climb.reached.climb climb.step := by
  fun_cases Instant.climb climb.reached climb.step with
  | case1 hzero => exact absurd hzero hstep
  | case2 _ later hlater => rw [next, hlater]
  | case3 _ hnone => rw [next, hnone]

/-! ### The whole climb -/

/-- A climb ends within the turns of its potential, where nothing is left of the step. It ends at
the latest instant, which is where the climb leads. -/
theorem Near.exists_turns (h : climb.Near) :
    ∃ turns ≤ climb.potential,
      (∀ earlier < turns, (Climb.next^[earlier] climb).step.nanos ≠ 0) ∧
        Climb.next^[turns] climb = ⟨climb.reached.climb climb.step, ⟨0⟩⟩ ∧
        (climb.reached.climb climb.step).nanos = latestNanos := by
  induction hpotential : climb.potential using Nat.strongRecOn generalizing climb with
  | ind potential ih =>
    subst hpotential
    by_cases hstep : climb.step.nanos = 0
    · -- The latest instant is no step away.
      have hgap : climb.gap = 0 := by
        have hnear : climb.gap ≤ 2 * climb.step.nanos := h
        omega
      have hrest : climb.reached.climb climb.step = climb.reached := by
        rw [Instant.climb.eq_def, if_pos hstep]
      refine ⟨0, Nat.zero_le _, nofun, ?_, ?_⟩
      · have hnothing : climb.step = ⟨0⟩ := congrArg Duration.mk hstep
        rw [hrest, ← hnothing]
        rfl
      · rw [hrest]
        exact Nat.le_antisymm climb.reached.le_latest (Nat.le_of_sub_eq_zero hgap)
    · have hlt := h.potential_next_lt hstep
      obtain ⟨turns, hturns, hearlier, hend, hlatest⟩ := ih _ hlt h.next rfl
      rw [climb_next hstep] at hend hlatest
      refine ⟨turns + 1, by omega, ?_, hend, hlatest⟩
      intro earlier hlt
      cases earlier with
      | zero => exact hstep
      | succ earlier => exact hearlier earlier (Nat.lt_of_succ_lt_succ hlt)

end Climb

/-! ### The sum -/

variable {now : Instant} {lifetime : Duration}

/-- A climb begins where the sum is not representable. -/
theorem exists_turns_of_add?_eq_none (h : now.add? lifetime = none) :
    ∃ turns ≤ 3 * lifetime.nanos.size,
      (∀ earlier < turns, (Climb.next^[earlier] ⟨now, lifetime⟩).step.nanos ≠ 0) ∧
        Climb.next^[turns] ⟨now, lifetime⟩ = ⟨now.addSaturating lifetime, ⟨0⟩⟩ ∧
        (now.addSaturating lifetime).nanos = latestNanos := by
  have hclimb : now.addSaturating lifetime = now.climb lifetime := by rw [addSaturating, h]
  have hlt : Climb.gap ⟨now, lifetime⟩ < lifetime.nanos := by
    rw [add?_eq_none_iff] at h
    have hlatest := now.le_latest
    unfold Climb.gap
    dsimp only
    omega
  have hnear : Climb.Near ⟨now, lifetime⟩ := by
    unfold Climb.Near
    dsimp only
    omega
  -- No addition comes before the first halving.
  have hpotential : Climb.potential ⟨now, lifetime⟩ = 3 * lifetime.nanos.size := by
    rw [Climb.potential, Nat.div_eq_of_lt hlt, Nat.add_zero]
  rw [hclimb, ← hpotential]
  exact hnear.exists_turns

/-- The sum is exact unless it is after the latest instant. -/
theorem nanos_addSaturating (t : Instant) (d : Duration) :
    (t.addSaturating d).nanos = min latestNanos (t.nanos + d.nanos) := by
  cases hsum : t.add? d with
  | some later =>
    have hlatest := later.le_latest
    rw [nanos_of_add?_eq_some hsum] at hlatest
    rw [addSaturating, hsum, Nat.min_eq_right hlatest]
    exact nanos_of_add?_eq_some hsum
  | none =>
    obtain ⟨-, -, -, -, hlatest⟩ := exists_turns_of_add?_eq_none hsum
    rw [add?_eq_none_iff] at hsum
    rw [hlatest, Nat.min_eq_left (Nat.le_of_lt hsum)]

/-- The sum of an instant and an amount of time is the exact one or the latest instant, whichever is
earlier. Either the exact sum is representable, or the loop finds the sum: nothing is left of the
step after no more turns than three times the binary digits of the amount, and not before its last
turn. -/
theorem addSaturating_in_turns (now : Instant) (lifetime : Duration) :
    (now.addSaturating lifetime).nanos = min (now.nanos + lifetime.nanos) latest.nanos ∧
      (now.add? lifetime = some (now.addSaturating lifetime) ∨
        now.add? lifetime = none ∧ ∃ turns ≤ 3 * lifetime.nanos.size,
          (∀ earlier < turns, (Climb.next^[earlier] ⟨now, lifetime⟩).step.nanos ≠ 0) ∧
            Climb.next^[turns] ⟨now, lifetime⟩ = ⟨now.addSaturating lifetime, ⟨0⟩⟩) := by
  refine ⟨?_, ?_⟩
  · rw [nanos_addSaturating, Nat.min_comm]
    rfl
  · cases hsum : now.add? lifetime with
    | some later => exact .inl (by rw [addSaturating, hsum])
    | none =>
      obtain ⟨turns, hturns, hearlier, hend, -⟩ := exists_turns_of_add?_eq_none hsum
      exact .inr ⟨rfl, turns, hturns, hearlier, hend⟩

/-- The greatest number of seconds that a lifetime can have leads to the latest instant. -/
example : (epoch.addSaturating (.ofSeconds (UInt64.size - 1))).nanos = latestNanos := by
  rw [nanos_addSaturating]
  decide

end DocTree.Instant
