import Mathlib.Data.Nat.ModEq

/-!
# Wall clocks

Times are minutes since the start of a Monday, the 1 January of the year 1 of the
Gregorian calendar; and what it is to happen every so many minutes.
-/

namespace Nebularr

/-! ## Dates -/

structure Date where
  year : ℕ
  month : ℕ
  day : ℕ
deriving DecidableEq, Repr

def isLeapYear (year : ℕ) : Bool := year % 4 == 0 && (year % 100 != 0 || year % 400 == 0)

def monthLength (year month : ℕ) : ℕ :=
  match month with
  | 2 => if isLeapYear year then 29 else 28
  | 4 | 6 | 9 | 11 => 30
  | _ => 31

/-- The date after. -/
def Date.next (d : Date) : Date :=
  if d.day < monthLength d.year d.month then { d with day := d.day + 1 }
  else if d.month < 12 then ⟨d.year, d.month + 1, 1⟩
  else ⟨d.year + 1, 1, 1⟩

def dateOfDay : ℕ → Date
  | 0 => ⟨1, 1, 1⟩
  | n + 1 => (dateOfDay n).next

/-- Within a month. -/
theorem dateOfDay_add {n year month : ℕ} (h : dateOfDay n = ⟨year, month, 1⟩) :
    ∀ k, k < monthLength year month → dateOfDay (n + k) = ⟨year, month, k + 1⟩ := by
  intro k
  induction k with
  | zero => exact fun _ => h
  | succ k ih =>
      intro hk
      rw [← Nat.add_assoc, dateOfDay, ih (by omega), Date.next, if_pos hk]

/-- From the first of a month to the first of the next. -/
theorem dateOfDay_nextMonth {n year month : ℕ} (h : dateOfDay n = ⟨year, month, 1⟩)
    (hmonth : month < 12)
    (hpos : 0 < monthLength year month) :
    dateOfDay (n + monthLength year month) = ⟨year, month + 1, 1⟩ := by
  have hlast := dateOfDay_add h (monthLength year month - 1) (by omega)
  have hlength : n + monthLength year month = n + (monthLength year month - 1) + 1 := by omega
  have hfull : monthLength year month - 1 + 1 = monthLength year month := by omega
  rw [hlength, dateOfDay, hlast, hfull, Date.next, if_neg (Nat.lt_irrefl _), if_pos hmonth]

/-- The first of February and of March of the year 1. -/
theorem date_of_firsts : dateOfDay 31 = ⟨1, 2, 1⟩ ∧ dateOfDay 59 = ⟨1, 3, 1⟩ := by
  have hjanuary : dateOfDay 0 = ⟨1, 1, 1⟩ := rfl
  have hfebruary := dateOfDay_nextMonth hjanuary (by decide) (by decide)
  have hmarch := dateOfDay_nextMonth hfebruary (by decide) (by decide)
  have hlengths : monthLength 1 1 = 31 ∧ monthLength 1 (1 + 1) = 28 := ⟨rfl, rfl⟩
  rw [hlengths.2, hlengths.1] at hmarch
  rw [hlengths.1] at hfebruary
  exact ⟨hfebruary, hmarch⟩

def dayMinutes : ℕ := 1440

def minuteOf (t : ℕ) : ℕ := t % 60

def hourOf (t : ℕ) : ℕ := t / 60 % 24

def dateOf (t : ℕ) : Date := dateOfDay (t / dayMinutes)

/-- Monday is 0. -/
def weekdayOf (t : ℕ) : ℕ := t / dayMinutes % 7

/-- A time of day, as the minute of the day. -/
theorem clock_iff {h m : ℕ} (hm : m < 60) (t : ℕ) :
    hourOf t = h ∧ minuteOf t = m ↔ t % dayMinutes = 60 * h + m := by
  unfold hourOf minuteOf dayMinutes
  omega

/-! ## Happening every so many minutes -/

/-- One time is `period` after the other, and none between them. -/
structure Every (period : ℕ) (happens : ℕ → Prop) : Prop where
  first : ∃ t, t < period ∧ happens t
  next : ∀ t, happens t → happens (t + period)
  between : ∀ t k, happens t → 0 < k → k < period → ¬ happens (t + k)

variable {period : ℕ} {happens : ℕ → Prop}

theorem Every.later (h : Every period happens) {t : ℕ} (ht : happens t) (n : ℕ) :
    happens (t + period * n) := by
  induction n with
  | zero => exact ht
  | succ n ih =>
      rw [Nat.mul_succ, ← Nat.add_assoc]
      exact h.next _ ih

/-- It is to happen at one phase. -/
theorem every_iff : Every period happens ↔ ∃ phase, phase < period ∧ ∀ t, happens t ↔
    t % period = phase := by
  constructor
  · intro h
    obtain ⟨phase, hphase, hfirst⟩ := h.first
    refine ⟨phase, hphase, fun t => ?_⟩
    have hsplit : t % period + period * (t / period) = t := Nat.mod_add_div t period
    have hmod : t % period < period := Nat.mod_lt t (by omega)
    have hat : happens (phase + period * (t / period)) := h.later hfirst (t / period)
    constructor
    · intro ht
      -- another time of the period would come between two of them
      by_contra hne
      obtain hlt | hgt := Nat.lt_or_gt_of_ne hne
      · refine h.between t (phase - t % period) ht (by omega) (by omega) ?_
        have heq : t + (phase - t % period) = phase + period * (t / period) := by omega
        rw [heq]
        exact hat
      · refine h.between _ (t % period - phase) hat (by omega) (by omega) ?_
        have heq : phase + period * (t / period) + (t % period - phase) = t := by omega
        rw [heq]
        exact ht
    · intro heq
      rw [← hsplit, heq]
      exact hat
  · intro ⟨phase, hphase, hall⟩
    refine ⟨⟨phase, hphase, (hall phase).mpr (Nat.mod_eq_of_lt hphase)⟩, fun t ht => ?_,
      fun t k ht hpos hk => ?_⟩
    · rw [hall, Nat.add_mod_right]
      exact (hall t).mp ht
    · rw [hall, ← (hall t).mp ht]
      intro heq
      have hdvd : period ∣ t + k - t := (Nat.modEq_iff_dvd' (Nat.le_add_right t k)).mp heq.symm
      rw [Nat.add_sub_cancel_left] at hdvd
      exact absurd (Nat.le_of_dvd hpos hdvd) (by omega)

/-- Two times at which it happens are whole periods apart. -/
theorem Every.dvd (h : Every period happens) {t k : ℕ} (ht : happens t) (hk : happens (t + k)) :
    period ∣ k := by
  obtain ⟨phase, _, hall⟩ := every_iff.mp h
  have heq : t % period = (t + k) % period := by rw [(hall t).mp ht, (hall (t + k)).mp hk]
  have hdvd := (Nat.modEq_iff_dvd' (Nat.le_add_right t k)).mp heq
  rwa [Nat.add_sub_cancel_left] at hdvd

end Nebularr
