import Mathlib.Logic.Function.Basic

/-!
# Guarded transition systems

A concurrent system given by a step function: `step s a` is the state after
action `a`, or `none` where `a` is not enabled.  A claim about such a system
often holds only as long as every step meets some condition; `Reaches` is
reachability along steps that do, and `Reaches.invariant` the induction.

`replay` runs a list of actions, so that a concrete schedule is a computation.
-/

section Transitions

variable {σ α : Type} (step : σ → α → Option σ) (C : σ → α → Prop)

/-- The states reached from `s` along enabled steps that meet `C`. -/
inductive Reaches (s : σ) : σ → Prop
  | refl : Reaches s s
  | tail {t u : σ} {a : α} : Reaches s t → C t a → step t a = some u → Reaches s u

/-- The states reached along any enabled steps. -/
abbrev Reachable (s t : σ) : Prop := Reaches step (fun _ _ => True) s t

/-- Run a schedule; `none` if some action of it is not enabled. -/
def replay : List α → σ → Option σ
  | [], s => some s
  | a :: rest, s => (step s a).bind (replay rest)

variable {step C}

/-- **Invariant rule.**  What holds at the start and is kept by every step that
meets the condition holds of every state reached. -/
theorem Reaches.invariant {inv : σ → Prop} {s t : σ} (h : Reaches step C s t) (hs : inv s)
    (hstep : ∀ s a s', inv s → C s a → step s a = some s' → inv s') : inv t := by
  induction h with
  | refl => exact hs
  | tail _ hcond hnext ih => exact hstep _ _ _ ih hcond hnext

/-- A weaker condition reaches more. -/
theorem Reaches.mono {C' : σ → α → Prop} {s t : σ} (h : Reaches step C s t)
    (hweaker : ∀ s a, C s a → C' s a) : Reaches step C' s t := by
  induction h with
  | refl => exact .refl
  | tail _ hcond hnext ih => exact .tail ih (hweaker _ _ hcond) hnext

/-- A condition that an invariant turns into another one. -/
theorem Reaches.refine {C' : σ → α → Prop} {inv : σ → Prop} {s t : σ} (h : Reaches step C s t)
    (hs : inv s)
    (hstep : ∀ s a s', inv s → C s a → step s a = some s' → C' s a ∧ inv s') :
    Reaches step C' s t ∧ inv t := by
  induction h with
  | refl => exact ⟨.refl, hs⟩
  | tail _ hcond hnext ih =>
      obtain ⟨hreach, hinv⟩ := ih
      obtain ⟨hcond', hinv'⟩ := hstep _ _ _ hinv hcond hnext
      exact ⟨.tail hreach hcond' hnext, hinv'⟩

theorem Reaches.trans {s t u : σ} (h : Reaches step C s t) (h' : Reaches step C t u) :
    Reaches step C s u := by
  induction h' with
  | refl => exact h
  | tail _ hcond hnext ih => exact .tail ih hcond hnext

/-- A schedule that runs through, by actions that meet a condition in every
state, reaches its last state. -/
theorem reaches_of_replay {actions : List α} {s t : σ} (hcond : ∀ a ∈ actions, ∀ u, C u a)
    (h : replay step actions s = some t) : Reaches step C s t := by
  induction actions generalizing s with
  | nil =>
      obtain rfl := Option.some.inj h
      exact .refl
  | cons a rest ih =>
      obtain ⟨u, hfirst, hrest⟩ := Option.bind_eq_some_iff.mp h
      have hlater := ih (fun b hb => hcond b (List.mem_cons_of_mem _ hb)) hrest
      exact (Reaches.tail .refl (hcond a List.mem_cons_self s) hfirst).trans hlater

/-- A step that is enabled only where it meets the condition. -/
def guardedStep (step : σ → α → Option σ) (C : σ → α → Prop) [∀ s, DecidablePred (C s)] (s : σ)
    (a : α) : Option σ :=
  if C s a then step s a else none

/-- A schedule of guarded steps that runs through meets the condition all along. -/
theorem reaches_of_replay_guardedStep [∀ s, DecidablePred (C s)] {actions : List α} {s t : σ}
    (h : replay (guardedStep step C) actions s = some t) : Reaches step C s t := by
  induction actions generalizing s with
  | nil =>
      obtain rfl := Option.some.inj h
      exact .refl
  | cons a rest ih =>
      obtain ⟨u, hfirst, hrest⟩ := Option.bind_eq_some_iff.mp h
      obtain ⟨hcond, hnext⟩ := Option.ite_none_right_eq_some.mp hfirst
      exact (Reaches.tail .refl hcond hnext).trans (ih hrest)

/-- A schedule that runs through reaches its last state. -/
theorem reachable_of_replay {actions : List α} {s t : σ} (h : replay step actions s = some t) :
    Reachable step s t :=
  reaches_of_replay (fun _ _ _ => trivial) h

/-- Schedules compose. -/
theorem replay_append (before after : List α) (s : σ) :
    replay step (before ++ after) s = (replay step before s).bind (replay step after) := by
  induction before generalizing s with
  | nil => rfl
  | cons a rest ih =>
      simp only [List.cons_append, replay, Option.bind_assoc]
      congr 1
      funext t
      exact ih t

end Transitions
