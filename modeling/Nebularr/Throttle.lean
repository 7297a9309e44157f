import Mathlib.Algebra.Order.Field.Rat
import Mathlib.Tactic.Linarith
import Mathlib.Tactic.NormNum
import Mathlib.Tactic.Ring
import Nebularr.Transitions

/-!
# The minimum interval between requests

Every request of a client waits in `_throttle` first: under a lock, it sleeps
until the interval since the last one has passed.  Any number of tasks share the
client, and one that is cancelled in its sleep leaves.  A timer of the event loop
may fire early, but by no more than the resolution of its clock.

However many tasks there are, the requests of a window of time are few
(`returned_in_window`).
-/

/-! ## Spaced times -/

section Spaced

/-- Times, latest first, that lie a gap apart. -/
def Spaced (gap : ℚ) (times : List ℚ) : Prop :=
  times.Pairwise fun later earlier => earlier + gap ≤ later

variable {gap first last : ℚ} {times : List ℚ}

/-- How many times lie in a window. -/
def inWindow (first last : ℚ) (times : List ℚ) : ℕ :=
  times.countP fun time => first ≤ time ∧ time ≤ last

/-- Times that are all before `bound` lie in a window if they do in the window
that ends there. -/
theorem inWindow_le_of_bound {bound : ℚ} (hbound : ∀ time ∈ times, time ≤ bound) :
    inWindow first last times ≤ inWindow first bound times := by
  apply List.countP_mono_left
  intro time hmem hin
  rw [decide_eq_true_eq] at hin ⊢
  exact ⟨hin.1, hbound time hmem⟩

/-- A window in which a time lies does not end before it begins. -/
theorem le_of_inWindow_pos (h : 0 < inWindow first last times) : first ≤ last := by
  obtain ⟨time, -, hin⟩ := List.countP_pos_iff.mp h
  rw [decide_eq_true_eq] at hin
  exact hin.1.trans hin.2

/-- A window holds one time for each gap that fits, and one. -/
theorem Spaced.inWindow_le (h : Spaced gap times) (hgap : 0 ≤ gap) (hwindow : first ≤ last) :
    inWindow first last times * gap ≤ last - first + gap := by
  induction times generalizing last with
  | nil =>
      have hnone : inWindow first last [] = 0 := rfl
      rw [hnone, Nat.cast_zero, zero_mul]
      linarith
  | cons time rest ih =>
      obtain ⟨hbefore, hrest⟩ := List.pairwise_cons.mp h
      by_cases hin : first ≤ time ∧ time ≤ last
      · have hcons : inWindow first last (time :: rest) = inWindow first last rest + 1 :=
          List.countP_cons_of_pos (decide_eq_true hin)
        have hshrink : inWindow first last rest ≤ inWindow first (time - gap) rest :=
          inWindow_le_of_bound fun earlier hmem => by linarith [hbefore earlier hmem]
        rw [hcons, Nat.cast_add, Nat.cast_one, add_mul, one_mul]
        rcases Nat.eq_zero_or_pos (inWindow first last rest) with hzero | hpos
        · rw [hzero, Nat.cast_zero, zero_mul]
          linarith
        · -- The others lie in the window that ends a gap before this time.
          have hearlier := ih hrest (le_of_inWindow_pos (hpos.trans_le hshrink))
          have hcast : (inWindow first last rest : ℚ) * gap ≤
              inWindow first (time - gap) rest * gap :=
            mul_le_mul_of_nonneg_right (Nat.cast_le.mpr hshrink) hgap
          linarith [hin.2]
      · have hcons : inWindow first last (time :: rest) = inWindow first last rest :=
          List.countP_cons_of_neg (by rwa [decide_eq_true_eq])
        rw [hcons]
        exact ih hrest hwindow

end Spaced

namespace Nebularr

/-! ## `_throttle` -/

/-- The task in `async with self._lock`, if there is one. -/
inductive LockHolder
  | nobody
  /-- It has read the clock, and computed `wait`. -/
  | measured (wait : ℚ)
  /-- It is in `asyncio.sleep`, with a timer for this time. -/
  | asleep (wakeAt : ℚ)
deriving DecidableEq

/-- A client's throttle, and the times at which calls of it returned. -/
structure Throttle where
  now : ℚ
  lastAt : ℚ := 0
  holder : LockHolder := .nobody
  returned : List ℚ := []
deriving DecidableEq

inductive ThrottleAction
  | tick (elapsed : ℚ)
  /-- Some task gets the lock and reads the clock. -/
  | enter
  | sleep
  | wakeUp
  | proceed
  | cancel
deriving DecidableEq

/-- `self._last_at = loop.time()`, and the return. -/
def Throttle.leave (s : Throttle) : Throttle :=
  { s with lastAt := s.now, holder := .nobody, returned := s.now :: s.returned }

/-- One action; `none` where it cannot happen. -/
def throttleStep (interval resolution : ℚ) (s : Throttle) : ThrottleAction → Option Throttle
  | .tick elapsed => if 0 ≤ elapsed then some { s with now := s.now + elapsed } else none
  | .enter =>
      if s.holder = .nobody then some { s with holder := .measured (s.lastAt + interval - s.now) }
        else none
  | .sleep =>
      match s.holder with
      | .measured wait =>
          if 0 < wait then some { s with holder := .asleep (s.now + wait) } else none
      | _ => none
  | .wakeUp =>
      match s.holder with
      | .asleep wakeAt => if wakeAt ≤ s.now + resolution then some s.leave else none
      | _ => none
  | .proceed =>
      match s.holder with
      | .measured wait => if 0 < wait then none else some s.leave
      | _ => none
  | .cancel =>
      match s.holder with
      | .asleep _ => some { s with holder := .nobody }
      | _ => none

/-- What can happen. -/
inductive ThrottleMoves (interval resolution : ℚ) (s : Throttle) : Throttle → Prop
  | tick (elapsed : ℚ) (helapsed : 0 ≤ elapsed) :
      ThrottleMoves interval resolution s { s with now := s.now + elapsed }
  | enter : ThrottleMoves interval resolution s
      { s with holder := .measured (s.lastAt + interval - s.now) }
  | sleep (wait : ℚ) (hholder : s.holder = .measured wait) :
      ThrottleMoves interval resolution s { s with holder := .asleep (s.now + wait) }
  | wakeUp (wakeAt : ℚ) (hholder : s.holder = .asleep wakeAt) (hdue : wakeAt ≤ s.now + resolution) :
      ThrottleMoves interval resolution s s.leave
  | proceed (wait : ℚ) (hholder : s.holder = .measured wait) (hwait : wait ≤ 0) :
      ThrottleMoves interval resolution s s.leave
  | cancel : ThrottleMoves interval resolution s { s with holder := .nobody }

variable {interval resolution : ℚ} {s t : Throttle} {a : ThrottleAction}

theorem throttleMoves_of_step (h : throttleStep interval resolution s a = some t) :
    ThrottleMoves interval resolution s t := by
  cases a with
  | tick elapsed =>
      obtain ⟨helapsed, hnext⟩ := Option.ite_none_right_eq_some.mp h
      obtain rfl := Option.some.inj hnext
      exact .tick elapsed helapsed
  | enter =>
      obtain ⟨-, hnext⟩ := Option.ite_none_right_eq_some.mp h
      obtain rfl := Option.some.inj hnext
      exact .enter
  | sleep =>
      simp only [throttleStep] at h
      split at h
      · next wait hholder =>
          obtain ⟨-, hnext⟩ := Option.ite_none_right_eq_some.mp h
          obtain rfl := Option.some.inj hnext
          exact .sleep wait hholder
      · exact nomatch h
  | wakeUp =>
      simp only [throttleStep] at h
      split at h
      · next wakeAt hholder =>
          obtain ⟨hdue, hnext⟩ := Option.ite_none_right_eq_some.mp h
          obtain rfl := Option.some.inj hnext
          exact .wakeUp wakeAt hholder hdue
      · exact nomatch h
  | proceed =>
      simp only [throttleStep] at h
      split at h
      · next wait hholder =>
          obtain ⟨hwait, hnext⟩ := Option.ite_none_left_eq_some.mp h
          obtain rfl := Option.some.inj hnext
          exact .proceed wait hholder (not_lt.mp hwait)
      · exact nomatch h
  | cancel =>
      simp only [throttleStep] at h
      split at h
      · obtain rfl := Option.some.inj h
        exact .cancel
      · exact nomatch h

/-- What the task that holds the lock knows of the last return. -/
def LockHolder.Fits (interval : ℚ) (s : Throttle) : LockHolder → Prop
  | .nobody => True
  | .measured wait => s.lastAt + interval ≤ s.now + wait ∧ wait ≤ interval
  | .asleep wakeAt => s.lastAt + interval ≤ wakeAt ∧ wakeAt ≤ s.now + interval

/-- The returns so far lie apart, and whoever holds the lock will keep to it. -/
structure Throttle.Paced (interval resolution : ℚ) (s : Throttle) : Prop where
  past : s.lastAt ≤ s.now
  holder : s.holder.Fits interval s
  latest : ∀ time ∈ s.returned, time ≤ s.lastAt
  spaced : Spaced (interval - resolution) s.returned

/-- Time passes for whoever holds the lock. -/
theorem LockHolder.Fits.tick {elapsed : ℚ} (h : s.holder.Fits interval s) (helapsed : 0 ≤ elapsed) :
    s.holder.Fits interval { s with now := s.now + elapsed } := by
  cases hholder : s.holder with
  | nobody => trivial
  | measured wait =>
      rw [hholder] at h
      have hlast : s.lastAt + interval ≤ s.now + wait := h.1
      have hlater : s.lastAt + interval ≤ s.now + elapsed + wait := by linarith
      exact ⟨hlater, h.2⟩
  | asleep wakeAt =>
      rw [hholder] at h
      have hsoon : wakeAt ≤ s.now + interval := h.2
      have hlater : wakeAt ≤ s.now + elapsed + interval := by linarith
      exact ⟨h.1, hlater⟩

/-- A call returns. -/
theorem Throttle.Paced.leave (hs : s.Paced interval resolution)
    (hdue : s.lastAt + (interval - resolution) ≤ s.now) : s.leave.Paced interval resolution where
  past := le_refl _
  holder := trivial
  latest := by
    intro time hmem
    obtain rfl | hearlier := List.mem_cons.mp hmem
    · exact le_refl _
    · exact (hs.latest time hearlier).trans hs.past
  spaced := by
    refine List.pairwise_cons.mpr ⟨fun earlier hmem => ?_, hs.spaced⟩
    have hlast : earlier ≤ s.lastAt := hs.latest earlier hmem
    linarith

theorem Throttle.Paced.step (hres : 0 ≤ resolution) (hs : s.Paced interval resolution)
    (h : throttleStep interval resolution s a = some t) : t.Paced interval resolution := by
  cases throttleMoves_of_step h with
  | tick elapsed helapsed =>
      have hpast : s.lastAt ≤ s.now + elapsed := by linarith [hs.past]
      exact ⟨hpast, hs.holder.tick helapsed, hs.latest, hs.spaced⟩
  | enter =>
      have hwait : s.lastAt + interval ≤ s.now + (s.lastAt + interval - s.now) := by linarith
      have hshort : s.lastAt + interval - s.now ≤ interval := by linarith [hs.past]
      exact ⟨hs.past, ⟨hwait, hshort⟩, hs.latest, hs.spaced⟩
  | sleep wait hholder =>
      have hfits := hs.holder
      rw [hholder] at hfits
      have hsoon : s.now + wait ≤ s.now + interval := by linarith [hfits.2]
      exact ⟨hs.past, ⟨hfits.1, hsoon⟩, hs.latest, hs.spaced⟩
  | wakeUp wakeAt hholder hdue =>
      have hfits := hs.holder
      rw [hholder] at hfits
      exact hs.leave (by linarith [hfits.1])
  | proceed wait hholder hwait =>
      have hfits := hs.holder
      rw [hholder] at hfits
      exact hs.leave (by linarith [hfits.1])
  | cancel => exact ⟨hs.past, trivial, hs.latest, hs.spaced⟩

/-- A client that was just built. -/
theorem paced_start {now : ℚ} (hnow : 0 ≤ now) : ({ now } : Throttle).Paced interval resolution :=
  ⟨hnow, trivial, nofun, List.Pairwise.nil⟩

/-- **The rate.**  Whatever tasks call, sleep, are cancelled and wake up early, a
window of time holds no more returns than intervals, but for the resolution of
the clock, and one; and nobody sleeps with the lock for more than an interval. -/
theorem returned_in_window {now first last : ℚ} (hnow : 0 ≤ now) (hres : 0 ≤ resolution)
    (hcoarse : resolution ≤ interval) (hwindow : first ≤ last)
    (h : Reachable (throttleStep interval resolution) { now } t) :
    inWindow first last t.returned * (interval - resolution) ≤
      last - first + (interval - resolution) ∧
      ∀ wakeAt, t.holder = .asleep wakeAt → wakeAt ≤ t.now + interval := by
  have ht : t.Paced interval resolution :=
    h.invariant (paced_start hnow) fun _ _ _ hs _ hstep => hs.step hres hstep
  refine ⟨ht.spaced.inWindow_le (sub_nonneg.mpr hcoarse) hwindow, fun wakeAt hholder => ?_⟩
  have hfits := ht.holder
  rw [hholder] at hfits
  exact hfits.2

/-- A task that is cancelled, a call that need not wait, and one whose timer
fires early. -/
theorem returned_in_window_early :
    ∃ t : Throttle, t.returned = [13 / 10, 7 / 10] ∧
      inWindow (7 / 10) (13 / 10) t.returned * (7 / 10 - 1 / 10 : ℚ) ≤
        13 / 10 - 7 / 10 + (7 / 10 - 1 / 10) := by
  obtain ⟨t, hrun, ht⟩ : ∃ t : Throttle, replay (throttleStep (7 / 10) (1 / 10))
      [.tick (1 / 2), .enter, .sleep, .cancel, .tick (1 / 5), .enter, .proceed, .tick (3 / 5),
        .enter, .sleep, .wakeUp] { now := 0 } = some t ∧ t.returned = [13 / 10, 7 / 10] :=
    ⟨⟨13 / 10, 13 / 10, .nobody, [13 / 10, 7 / 10]⟩, by decide +kernel, rfl⟩
  refine ⟨t, ht, (returned_in_window (le_refl 0) ?_ ?_ ?_ (reachable_of_replay hrun)).1⟩
  · norm_num
  · norm_num
  · norm_num

end Nebularr
