import Mathlib.Data.Finset.Sort
import Nebularr.Transitions

/-!
# Waking the webhook drain

A webhook that was queued asks for a drain of its source: the source is noted,
and an event set that the drain loop waits for.  The loop waits a little for
more, takes what is noted, and processes the queues of these sources one by one;
in the meantime further sources are noted.

No request is lost on the way.  As long as no pass of its source has begun since,
the loop is not stuck, and has not far to go (`drained_after_request`).
-/

section Rank

variable {σ α : Type} {step : σ → α → Option σ}

/-- **Bounded progress.**  Where every step that counts brings a rank down and no
other raises it, steps that count cannot be more than the rank. -/
theorem countP_le_rank {inv : σ → Prop} {rank : σ → ℕ} {counts : α → Bool} {excluded : α → Prop}
    (hstep : ∀ s a t, inv s → ¬ excluded a → step s a = some t →
      inv t ∧ rank t + (counts a).toNat ≤ rank s)
    {actions : List α} {s t : σ} (hs : inv s) (hrun : replay step actions s = some t)
    (hnot : ∀ a ∈ actions, ¬ excluded a) : inv t ∧ rank t + actions.countP counts ≤ rank s := by
  induction actions generalizing s with
  | nil =>
      obtain rfl := Option.some.inj hrun
      exact ⟨hs, Nat.le_refl _⟩
  | cons a rest ih =>
      obtain ⟨u, hfirst, hrest⟩ := Option.bind_eq_some_iff.mp hrun
      obtain ⟨hfine, hlater⟩ := List.forall_mem_cons.mp hnot
      obtain ⟨hu, hdown⟩ := hstep s a u hs hfine hfirst
      obtain ⟨ht, hrank⟩ := ih hu hrest hlater
      refine ⟨ht, ?_⟩
      cases hcounts : counts a with
      | true =>
          rw [List.countP_cons_of_pos hcounts]
          rw [hcounts, Bool.toNat_true] at hdown
          omega
      | false =>
          rw [List.countP_cons_of_neg (by rw [hcounts]; exact Bool.false_ne_true)]
          omega

end Rank

namespace Nebularr

/-- Where `_drain_webhooks_background` is. -/
inductive DrainPhase (κ : Type)
  /-- In `wait_for`. -/
  | waiting
  | debouncing
  /-- Before the next of these sources. -/
  | draining (sources : List κ)
  | processing (source : κ) (rest : List κ)
  | ended
deriving DecidableEq, Repr

/-- `drain_pending_sources`, `drain_wakeup`, `stop_event`, and the loop. -/
structure DrainState (κ : Type) where
  pending : Finset κ := ∅
  wakeup : Bool := false
  stopping : Bool := false
  phase : DrainPhase κ := .waiting

inductive DrainAction (κ : Type)
  /-- `request_webhook_drain`. -/
  | request (source : κ)
  | stop
  | cancel
  | timeout
  | wake
  | collect
  | pass (source : κ)
  | passed
  | turn
deriving DecidableEq, Repr

section Drain

variable {κ : Type} [LinearOrder κ]

/-- The test of `while not stop_event.is_set()`. -/
def DrainState.loopTop (s : DrainState κ) : DrainState κ :=
  { s with phase := if s.stopping then .ended else .waiting }

/-- One action; `none` where it cannot happen. -/
def drainStep (s : DrainState κ) : DrainAction κ → Option (DrainState κ)
  | .request source => some { s with pending := insert source s.pending, wakeup := true }
  | .stop => some { s with stopping := true }
  | .cancel => if s.stopping then some { s with phase := .ended } else none
  | .timeout => if s.phase = .waiting then some s.loopTop else none
  | .wake =>
      if s.phase = .waiting ∧ s.wakeup = true then some { s with phase := .debouncing } else none
  | .collect =>
      if s.phase = .debouncing then
        some { s with
          wakeup := false
          pending := ∅
          phase := .draining (s.pending.sort (· ≤ ·)) }
      else none
  | .pass source =>
      match s.phase with
      | .draining (first :: rest) =>
          if source = first ∧ s.stopping = false then
            some { s with phase := .processing source rest } else none
      | _ => none
  | .passed =>
      match s.phase with
      | .processing _ rest => some { s with phase := .draining rest }
      | _ => none
  | .turn =>
      match s.phase with
      | .draining sources => if sources = [] ∨ s.stopping = true then some s.loopTop else none
      | _ => none

/-- The moves of the loop, but for a timeout. -/
def DrainAction.isMove : DrainAction κ → Bool
  | .wake | .collect | .pass _ | .passed | .turn => true
  | _ => false

/-- The sources that a round has still to come to. -/
def DrainPhase.remaining : DrainPhase κ → List κ
  | .draining sources => sources
  | .processing _ rest => rest
  | _ => []

/-- What can happen while nobody stops the loop. -/
inductive DrainMoves (s : DrainState κ) : DrainAction κ → DrainState κ → Prop
  | request (source : κ) :
      DrainMoves s (.request source) { s with pending := insert source s.pending, wakeup := true }
  | stop : DrainMoves s .stop { s with stopping := true }
  | timeout (hphase : s.phase = .waiting) : DrainMoves s .timeout s
  | wake (hphase : s.phase = .waiting) : DrainMoves s .wake { s with phase := .debouncing }
  | collect (hphase : s.phase = .debouncing) :
      DrainMoves s .collect
        { s with wakeup := false, pending := ∅, phase := .draining (s.pending.sort (· ≤ ·)) }
  | pass (first : κ) (rest : List κ) (hphase : s.phase = .draining (first :: rest)) :
      DrainMoves s (.pass first) { s with phase := .processing first rest }
  | passed (first : κ) (rest : List κ) (hphase : s.phase = .processing first rest) :
      DrainMoves s .passed { s with phase := .draining rest }
  | turn (hphase : s.phase = .draining []) : DrainMoves s .turn { s with phase := .waiting }

variable {known : Finset κ} {s t : DrainState κ} {a : DrainAction κ} {source : κ}

omit [LinearOrder κ] in
theorem loopTop_of_not_stopping (h : s.stopping = false) :
    s.loopTop = { s with phase := .waiting } := by
  rw [DrainState.loopTop, h]
  rfl

theorem drainMoves_of_drainStep (hstopping : s.stopping = false) (h : drainStep s a = some t) :
    DrainMoves s a t := by
  have htop := loopTop_of_not_stopping hstopping
  cases a with
  | request source =>
      obtain rfl := Option.some.inj h
      exact .request source
  | stop =>
      obtain rfl := Option.some.inj h
      exact .stop
  | cancel =>
      rw [drainStep, if_neg (by rw [hstopping]; exact Bool.false_ne_true)] at h
      cases h
  | timeout =>
      rw [drainStep, htop] at h
      split at h
      · next hphase =>
          obtain rfl := Option.some.inj h
          have hsame : { s with phase := .waiting } = s := by rw [← hphase]
          rw [hsame]
          exact .timeout hphase
      · cases h
  | wake =>
      rw [drainStep] at h
      split at h
      · next hcan =>
          obtain rfl := Option.some.inj h
          exact .wake hcan.1
      · cases h
  | collect =>
      rw [drainStep] at h
      split at h
      · next hphase =>
          obtain rfl := Option.some.inj h
          exact .collect hphase
      · cases h
  | pass source =>
      rw [drainStep] at h
      split at h
      · next first rest hphase =>
          split at h
          · next hfirst =>
              obtain rfl := hfirst.1
              obtain rfl := Option.some.inj h
              exact .pass source rest hphase
          · cases h
      · cases h
  | passed =>
      rw [drainStep] at h
      split at h
      · next first rest hphase =>
          obtain rfl := Option.some.inj h
          exact .passed first rest hphase
      · cases h
  | turn =>
      rw [drainStep, htop] at h
      split at h
      · next sources hphase =>
          split at h
          · next hdone =>
              obtain rfl : sources = [] :=
                hdone.resolve_right (by rw [hstopping]; exact Bool.false_ne_true)
              obtain rfl := Option.some.inj h
              exact .turn hphase
          · cases h
      · cases h

/-! ## No request is lost -/

/-- The loop is at work, on sources that are known. -/
structure DrainReady (known : Finset κ) (s : DrainState κ) : Prop where
  notStopping : s.stopping = false
  notEnded : s.phase ≠ .ended
  pending_subset : s.pending ⊆ known
  remaining_le : s.phase.remaining.length ≤ known.card
  /-- What is noted has set the event. -/
  wakeup : s.pending.Nonempty → s.wakeup = true

/-- A source whose pass has not begun yet. -/
def DrainState.Due (s : DrainState κ) (source : κ) : Prop :=
  source ∈ s.pending ∨ source ∈ s.phase.remaining

/-- The actions that the loop does not have to reckon with. -/
def Unforeseen (known : Finset κ) (a : DrainAction κ) : Prop :=
  a = .stop ∨ ∃ source ∉ known, a = .request source

/-- How many moves it takes at most until the pass of a source begins. -/
def DrainState.movesTo (bound : ℕ) (source : κ) (s : DrainState κ) : ℕ :=
  match s.phase with
  | .waiting => 2 * bound + 2
  | .debouncing => 2 * bound + 1
  | .draining sources =>
      if source ∈ sources then 2 * sources.idxOf source + 1 else 2 * sources.length + 2 * bound + 3
  | .processing _ rest =>
      if source ∈ rest then 2 * rest.idxOf source + 2 else 2 * rest.length + 2 * bound + 4
  | .ended => 0

theorem DrainReady.step (hs : DrainReady known s) (ha : ¬ Unforeseen known a)
    (h : drainStep s a = some t) :
    DrainReady known t := by
  obtain ⟨hstopping, hended, hsubset, hle, hwakeup⟩ := hs
  cases drainMoves_of_drainStep hstopping h with
  | request source =>
      have hknown : source ∈ known := by
        by_contra hunknown
        exact ha (Or.inr ⟨source, hunknown, rfl⟩)
      exact ⟨hstopping, hended, Finset.insert_subset hknown hsubset, hle, fun _ => rfl⟩
  | stop => exact absurd (Or.inl rfl) ha
  | timeout => exact ⟨hstopping, hended, hsubset, hle, hwakeup⟩
  | wake => exact ⟨hstopping, nofun, hsubset, Nat.zero_le _, hwakeup⟩
  | collect =>
      refine ⟨hstopping, nofun, Finset.empty_subset _, ?_, fun hnone =>
        absurd hnone Finset.not_nonempty_empty⟩
      rw [DrainPhase.remaining, Finset.length_sort]
      exact Finset.card_le_card hsubset
  | pass first rest hphase =>
      rw [hphase] at hle
      exact ⟨hstopping, nofun, hsubset, Nat.le_of_succ_le hle, hwakeup⟩
  | passed first rest hphase =>
      rw [hphase] at hle
      exact ⟨hstopping, nofun, hsubset, hle, hwakeup⟩
  | turn => exact ⟨hstopping, nofun, hsubset, Nat.zero_le _, hwakeup⟩

/-- **A due source stays due** until its pass begins. -/
theorem due_drainStep (hs : DrainReady known s) (hdue : s.Due source) (ha : a ≠ .pass source)
    (h : drainStep s a = some t) : t.Due source := by
  cases drainMoves_of_drainStep hs.notStopping h with
  | request other => exact hdue.imp_left Finset.mem_insert_of_mem
  | stop => exact hdue
  | timeout => exact hdue
  | wake hphase =>
      unfold DrainState.Due at hdue
      rw [hphase] at hdue
      exact hdue
  | collect hphase =>
      unfold DrainState.Due at hdue
      rw [hphase] at hdue
      exact Or.inr ((Finset.mem_sort _).mpr (hdue.resolve_right List.not_mem_nil))
  | pass first rest hphase =>
      unfold DrainState.Due at hdue
      rw [hphase] at hdue
      refine hdue.imp_right fun hmem => (List.mem_cons.mp hmem).resolve_left fun heq => ?_
      exact ha (congrArg DrainAction.pass heq.symm)
  | passed first rest hphase =>
      unfold DrainState.Due at hdue
      rw [hphase] at hdue
      exact hdue
  | turn hphase =>
      unfold DrainState.Due at hdue
      rw [hphase] at hdue
      exact hdue

/-- **Every move brings the pass nearer**, and nothing else puts it off. -/
theorem movesTo_drainStep (hs : DrainReady known s) (hdue : s.Due source) (hstop : a ≠ .stop)
    (ha : a ≠ .pass source) (h : drainStep s a = some t) :
    t.movesTo known.card source + a.isMove.toNat ≤ s.movesTo known.card source := by
  unfold DrainState.Due at hdue
  cases drainMoves_of_drainStep hs.notStopping h with
  | request other => exact Nat.le_refl _
  | stop => exact absurd rfl hstop
  | timeout => exact Nat.le_refl _
  | wake hphase =>
      simp only [DrainState.movesTo, hphase, DrainAction.isMove, Bool.toNat_true]
      omega
  | collect hphase =>
      rw [hphase] at hdue
      have hmem : source ∈ s.pending.sort (· ≤ ·) :=
        (Finset.mem_sort _).mpr (hdue.resolve_right List.not_mem_nil)
      have hindex := List.idxOf_lt_length_of_mem hmem
      rw [Finset.length_sort] at hindex
      have hcard := Finset.card_le_card hs.pending_subset
      simp only [DrainState.movesTo, hphase, DrainAction.isMove, Bool.toNat_true, if_pos hmem]
      omega
  | pass first rest hphase =>
      have hother : first ≠ source := fun heq => ha (congrArg DrainAction.pass heq)
      simp only [DrainState.movesTo, hphase, DrainAction.isMove, Bool.toNat_true]
      by_cases hmem : source ∈ rest
      · rw [if_pos hmem, if_pos (List.mem_cons_of_mem first hmem), List.idxOf_cons_ne _ hother]
        omega
      · rw [if_neg hmem, if_neg fun h =>
          (List.mem_cons.mp h).elim (fun heq => hother heq.symm) hmem,
          List.length_cons]
        omega
  | passed first rest hphase =>
      simp only [DrainState.movesTo, hphase, DrainAction.isMove, Bool.toNat_true]
      split <;> omega
  | turn hphase =>
      simp only [DrainState.movesTo, hphase, DrainAction.isMove, Bool.toNat_true, List.not_mem_nil,
        if_false, List.length_nil]
      omega

theorem movesTo_le (hs : DrainReady known s) :
    s.movesTo known.card source ≤ 4 * known.card + 4 := by
  have hle := hs.remaining_le
  unfold DrainState.movesTo
  cases hphase : s.phase with
  | waiting => dsimp only; omega
  | debouncing => dsimp only; omega
  | ended => exact absurd hphase hs.notEnded
  | draining sources =>
      rw [hphase, DrainPhase.remaining] at hle
      dsimp only
      split
      · next hmem =>
          have hindex := List.idxOf_lt_length_of_mem hmem
          omega
      · omega
  | processing first rest =>
      rw [hphase, DrainPhase.remaining] at hle
      dsimp only
      split
      · next hmem =>
          have hindex := List.idxOf_lt_length_of_mem hmem
          omega
      · omega

/-- **The loop is never stuck** while a source is due. -/
theorem exists_move (hs : DrainReady known s) (hdue : s.Due source) :
    ∃ a, a.isMove = true ∧ (drainStep s a).isSome = true := by
  unfold DrainState.Due at hdue
  cases hphase : s.phase with
  | waiting =>
      rw [hphase] at hdue
      have hnoted : s.pending.Nonempty := ⟨source, hdue.resolve_right List.not_mem_nil⟩
      exact ⟨.wake, rfl, by rw [drainStep, if_pos ⟨hphase, hs.wakeup hnoted⟩]; rfl⟩
  | debouncing => exact ⟨.collect, rfl, by rw [drainStep, if_pos hphase]; rfl⟩
  | draining sources =>
      cases sources with
      | nil => exact ⟨.turn, rfl, by simp [drainStep, hphase]⟩
      | cons first rest => exact ⟨.pass first, rfl, by simp [drainStep, hphase, hs.notStopping]⟩
  | processing first rest => exact ⟨.passed, rfl, by simp [drainStep, hphase]⟩
  | ended => exact absurd hphase hs.notEnded

omit [LinearOrder κ] in
/-- The loop at its start. -/
theorem drainReady_start (known : Finset κ) : DrainReady known ({} : DrainState κ) :=
  ⟨rfl, nofun, Finset.empty_subset _, Nat.zero_le _, fun hnone =>
    absurd hnone Finset.not_nonempty_empty⟩

/-- **No request is lost.**  In every run in which nobody stops the loop, whatever
is requested while it waits, debounces and drains: as long as no pass of a
requested source has begun since the request, the loop has a move to make, and
has made at most four for each source that there is, and four, since. -/
theorem drained_after_request {before after : List (DrainAction κ)}
    (hbefore : replay drainStep before {} = some s)
    (hafter : replay drainStep (.request source :: after) s = some t)
    (hforeseen : ∀ a ∈ before ++ .request source :: after, ¬ Unforeseen known a)
    (hpass : .pass source ∉ after) :
    (∃ a, a.isMove = true ∧ (drainStep t a).isSome = true) ∧
      after.countP DrainAction.isMove ≤ 4 * known.card + 4 := by
  obtain ⟨hforeseen, hlater⟩ := List.forall_mem_append.mp hforeseen
  obtain ⟨hrequest, hlater⟩ := List.forall_mem_cons.mp hlater
  have hreach : Reaches drainStep (fun _ a => ¬ Unforeseen known a) {} s :=
    reaches_of_replay (fun a ha _ => hforeseen a ha) hbefore
  have hready : DrainReady known s :=
    hreach.invariant (drainReady_start known) fun _ _ _ hs ha hstep => hs.step ha hstep
  obtain ⟨u, hu, hafter⟩ := Option.bind_eq_some_iff.mp hafter
  have hready' : DrainReady known u := hready.step hrequest hu
  have hdue : u.Due source := by
    obtain rfl := Option.some.inj hu
    exact Or.inl (Finset.mem_insert_self _ _)
  have hstep : ∀ (s : DrainState κ) (a : DrainAction κ) (t : DrainState κ),
      DrainReady known s ∧ s.Due source → ¬ (Unforeseen known a ∨ a = .pass source) →
        drainStep s a = some t → (DrainReady known t ∧ t.Due source) ∧
          t.movesTo known.card source + a.isMove.toNat ≤ s.movesTo known.card source := by
    intro s a t hs ha hstep
    obtain ⟨hforeseen, hnot⟩ := not_or.mp ha
    have hstop : a ≠ .stop := fun h => hforeseen (Or.inl h)
    exact ⟨⟨hs.1.step hforeseen hstep, due_drainStep hs.1 hs.2 hnot hstep⟩,
      movesTo_drainStep hs.1 hs.2 hstop hnot hstep⟩
  obtain ⟨⟨ht, hdue'⟩, hmoves⟩ := countP_le_rank hstep ⟨hready', hdue⟩ hafter
    fun a ha => not_or.mpr ⟨hlater a ha, fun h => hpass (h ▸ ha)⟩
  have hbound : u.movesTo known.card source ≤ 4 * known.card + 4 := movesTo_le hready'
  exact ⟨exists_move ht hdue', by omega⟩

/-- A request that comes while a pass of its source is under way. -/
theorem drained_after_request_meanwhile :
    ∃ s t : DrainState ℕ, replay drainStep [.request 2, .wake, .collect, .pass 2] {} = some s ∧
      replay drainStep [.request 2, .passed, .turn, .wake] s = some t ∧
        ∃ a, a.isMove = true ∧ (drainStep t a).isSome = true := by
  obtain ⟨s, hbefore, hs⟩ : ∃ s : DrainState ℕ,
      replay drainStep [.request 2, .wake, .collect, .pass 2] {} = some s ∧
        s = { phase := .processing 2 [] } := by
    simp [replay, drainStep]
  obtain ⟨t, hafter⟩ : ∃ t : DrainState ℕ,
      replay drainStep [.request 2, .passed, .turn, .wake] s = some t := by
    simp [replay, drainStep, DrainState.loopTop, hs]
  refine ⟨s, t, hbefore, hafter, (@drained_after_request ℕ _ {2} s t 2 _ _ hbefore hafter ?_ ?_).1⟩
  · intro a ha
    simp only [List.cons_append, List.nil_append, List.mem_cons, List.not_mem_nil, or_false] at ha
    intro hun
    obtain rfl | ⟨source, hunknown, rfl⟩ := hun
    · simp at ha
    · simp at ha
      exact hunknown (by simp [ha])
  · decide

end Drain

end Nebularr
