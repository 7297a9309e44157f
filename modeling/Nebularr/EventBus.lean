import Mathlib.Data.Nat.Notation
import Mathlib.Logic.Function.Basic
import Mathlib.Tactic.Common
import Nebularr.AlertNotifier
import Nebularr.Transitions

/-!
# The event bus

Publishers in any thread hand their events over to the loop, and the loop puts
each into the queue of every subscriber.  A queue that is full does not take it.
The subscribers take from their queues when they come to it, and come and go.

So a subscriber gets the events since it subscribed, in their order, without
those that came while its queue was full (`mailbox_of_reachable`); and what the
other subscribers do makes no difference to it (`replay_others`).
-/

namespace Nebularr

/-- What `_loop` is. -/
inductive LoopState
  | unbound
  | running
  | closed
deriving DecidableEq, Repr

/-- The queue of a subscriber, with the events it was offered and those it has
taken; `since` is how many had been dispatched when it subscribed. -/
structure Mailbox (ε : Type) where
  waiting : List ε := []
  offered : List ε := []
  taken : List ε := []
  since : ℕ := 0
deriving DecidableEq, Repr

/-- The bus; `handedOver` are the calls of `_dispatch` that the loop has not
come to, and `published` the events that were ever handed over. -/
structure EventBus (ε : Type) where
  loop : LoopState := .unbound
  handedOver : List ε := []
  published : List ε := []
  subscribers : ℕ → Option (Mailbox ε) := fun _ => none

/-- What the threads and the loop do. -/
inductive BusAction (ε : Type)
  | bindLoop
  | closeLoop
  | publish (event : ε)
  | dispatch
  | subscribe (i : ℕ)
  | unsubscribe (i : ℕ)
  | take (i : ℕ)
deriving DecidableEq, Repr

section Bus

variable {ε : Type}

/-- `Queue.full`; a queue of size 0 is never full. -/
def queueFull (maxQueueSize : ℕ) (waiting : List ε) : Bool :=
  decide (0 < maxQueueSize) && decide (maxQueueSize ≤ waiting.length)

/-- `put_nowait`, where `QueueFull` drops the event. -/
def Mailbox.offer (maxQueueSize : ℕ) (event : ε) (m : Mailbox ε) : Mailbox ε :=
  { m with
    waiting := if queueFull maxQueueSize m.waiting then m.waiting else m.waiting ++ [event]
    offered := m.offered ++ [event] }

/-- How many of the published events the loop has come to. -/
def EventBus.dispatchedSoFar (s : EventBus ε) : ℕ := s.published.length - s.handedOver.length

def EventBus.setMailbox (s : EventBus ε) (i : ℕ) (m : Option (Mailbox ε)) : EventBus ε :=
  { s with subscribers := Function.update s.subscribers i m }

/-- Writing a mailbox publishes nothing. -/
@[simp] theorem EventBus.published_setMailbox (s : EventBus ε) (i : ℕ) (m : Option (Mailbox ε)) :
    (s.setMailbox i m).published = s.published := rfl

/-- Writing a mailbox hands nothing over. -/
@[simp] theorem EventBus.handedOver_setMailbox (s : EventBus ε) (i : ℕ) (m : Option (Mailbox ε)) :
    (s.setMailbox i m).handedOver = s.handedOver := rfl

/-- One action; `none` where it cannot happen. -/
def busStep (maxQueueSize : ℕ) (s : EventBus ε) : BusAction ε → Option (EventBus ε)
  | .bindLoop => if s.loop = .unbound then some { s with loop := .running } else none
  | .closeLoop => if s.loop = .running then some { s with loop := .closed } else none
  | .publish event =>
      -- before the loop is bound and after it is closed, the event is dropped
      if s.loop = .running then
        some { s with handedOver := s.handedOver ++ [event], published := s.published ++ [event] }
      else some s
  | .dispatch =>
      match s.loop, s.handedOver with
      | .running, event :: rest =>
          some { s with
            handedOver := rest
            subscribers := fun i => (s.subscribers i).map (Mailbox.offer maxQueueSize event) }
      | _, _ => none
  | .subscribe i =>
      match s.loop, s.subscribers i with
      | .running, none => some (s.setMailbox i (some { since := s.dispatchedSoFar }))
      | _, _ => none
  | .unsubscribe i =>
      match s.subscribers i with
      | some _ => some (s.setMailbox i none)
      | none => none
  | .take i =>
      match s.subscribers i with
      | some m =>
          match m.waiting with
          | event :: rest =>
              some (s.setMailbox i (some { m with waiting := rest, taken := m.taken ++ [event] }))
          | [] => none
      | none => none

/-- After a mailbox is written, it is the one written or was there before. -/
theorem mailbox_setMailbox {s : EventBus ε} {i j : ℕ} {new : Option (Mailbox ε)} {m : Mailbox ε}
    (h : (s.setMailbox j new).subscribers i = some m) :
    (i = j ∧ new = some m) ∨ s.subscribers i = some m := by
  unfold EventBus.setMailbox at h
  dsimp only at h
  by_cases hi : i = j
  · subst hi
    rw [Function.update_self] at h
    exact Or.inl ⟨rfl, h⟩
  · rw [Function.update_of_ne hi] at h
    exact Or.inr h

/-! ## What a subscriber gets -/

/-- The mailbox of a subscriber, as far as the events that were published go. -/
structure Mailbox.Sound (maxQueueSize : ℕ) (s : EventBus ε) (m : Mailbox ε) : Prop where
  /-- It is offered every event from those on that were not dispatched yet when it
  subscribed, in order. -/
  segment : ∃ before, before.length = m.since ∧
    s.published = before ++ m.offered ++ s.handedOver
  /-- What it gets are some of them, each once, in their order. -/
  sublist : (m.taken ++ m.waiting).Sublist m.offered
  bounded : 0 < maxQueueSize → m.waiting.length ≤ maxQueueSize

/-- The bus as a whole: what was published is dispatched or still handed over. -/
structure EventBus.Sound (maxQueueSize : ℕ) (s : EventBus ε) : Prop where
  dispatched : ∃ before, s.published = before ++ s.handedOver
  mailboxes : ∀ i m, s.subscribers i = some m → m.Sound maxQueueSize s

variable {maxQueueSize : ℕ} {s t : EventBus ε} {a : BusAction ε} {m m' : Mailbox ε} {i : ℕ}

/-- How one action changes what was published and what is handed over. -/
theorem published_busStep (h : busStep maxQueueSize s a = some t) :
    (a ≠ .dispatch ∧ ∃ more, t.published = s.published ++ more ∧
      t.handedOver = s.handedOver ++ more) ∨
      a = .dispatch ∧ ∃ event, s.handedOver = event :: t.handedOver ∧
        t.published = s.published := by
  cases a with
  | dispatch =>
      simp only [busStep] at h
      split at h
      · next hhanded =>
          obtain rfl := Option.some.inj h
          exact Or.inr ⟨rfl, _, hhanded, rfl⟩
      · cases h
  | publish event =>
      simp only [busStep] at h
      split at h
      · obtain rfl := Option.some.inj h
        exact Or.inl ⟨nofun, [event], rfl, rfl⟩
      · obtain rfl := Option.some.inj h
        exact Or.inl ⟨nofun, [], by simp, by simp⟩
  | _ =>
      simp only [busStep] at h
      repeat' split at h
      all_goals cases h
      all_goals exact Or.inl ⟨nofun, [], by simp, by simp⟩

/-- How one action changes the mailbox of a subscriber. -/
theorem mailbox_busStep (h : busStep maxQueueSize s a = some t) (hm : t.subscribers i = some m') :
    (m' = { since := s.dispatchedSoFar } ∧ a = .subscribe i ∧ t.published = s.published ∧
        t.handedOver = s.handedOver) ∨
      ∃ m, s.subscribers i = some m ∧
        ((m' = m ∧ a ≠ .dispatch) ∨
          (∃ event, a = .dispatch ∧ s.handedOver = event :: t.handedOver ∧
            m' = m.offer maxQueueSize event) ∨
          ∃ event rest, a = .take i ∧ m.waiting = event :: rest ∧
            m' = { m with waiting := rest, taken := m.taken ++ [event] }) := by
  cases a with
  | dispatch =>
      simp only [busStep] at h
      split at h
      · next hhanded =>
          obtain rfl := Option.some.inj h
          obtain ⟨m, hold, rfl⟩ := Option.map_eq_some_iff.mp hm
          exact Or.inr ⟨m, hold, Or.inr (Or.inl ⟨_, rfl, hhanded, rfl⟩)⟩
      · cases h
  | subscribe j =>
      simp only [busStep] at h
      split at h
      · obtain rfl := Option.some.inj h
        obtain ⟨rfl, hnew⟩ | hold := mailbox_setMailbox hm
        · exact Or.inl ⟨(Option.some.inj hnew).symm, rfl, rfl, rfl⟩
        · exact Or.inr ⟨m', hold, Or.inl ⟨rfl, nofun⟩⟩
      · cases h
  | unsubscribe j =>
      simp only [busStep] at h
      split at h
      · obtain rfl := Option.some.inj h
        obtain ⟨-, hnone⟩ | hold := mailbox_setMailbox hm
        · cases hnone
        · exact Or.inr ⟨m', hold, Or.inl ⟨rfl, nofun⟩⟩
      · cases h
  | take j =>
      simp only [busStep] at h
      split at h
      · next m hold =>
          split at h
          · next event rest hwaiting =>
              obtain rfl := Option.some.inj h
              obtain ⟨rfl, hnew⟩ | hother := mailbox_setMailbox hm
              · exact Or.inr ⟨m, hold,
                  Or.inr (Or.inr ⟨event, rest, rfl, hwaiting, (Option.some.inj hnew).symm⟩)⟩
              · exact Or.inr ⟨m', hother, Or.inl ⟨rfl, nofun⟩⟩
          · cases h
      · cases h
  | _ =>
      simp only [busStep] at h
      split at h <;> cases h
      all_goals exact Or.inr ⟨m', hm, Or.inl ⟨rfl, nofun⟩⟩

/-- A mailbox stays sound while events are published and handed over. -/
theorem Mailbox.Sound.later (hm : m.Sound maxQueueSize s)
    (h : ∃ more, t.published = s.published ++ more ∧ t.handedOver = s.handedOver ++ more) :
    m.Sound maxQueueSize t := by
  obtain ⟨more, hmore, hhanded⟩ := h
  obtain ⟨before, hsince, hbefore⟩ := hm.segment
  refine ⟨⟨before, hsince, ?_⟩, hm.sublist, hm.bounded⟩
  rw [hmore, hhanded, hbefore, List.append_assoc]

/-- An event is added to what was offered, and to what waits if there is room. -/
theorem Mailbox.Sound.offer (hm : m.Sound maxQueueSize s) {event : ε}
    (hhanded : s.handedOver = event :: t.handedOver) (hpublished : t.published = s.published) :
    (m.offer maxQueueSize event).Sound maxQueueSize t where
  segment := by
    obtain ⟨before, hsince, hbefore⟩ := hm.segment
    refine ⟨before, hsince, ?_⟩
    rw [hpublished, hbefore, hhanded]
    simp [Mailbox.offer]
  sublist := by
    rw [Mailbox.offer]
    dsimp only
    split
    · exact hm.sublist.trans (List.sublist_append_left _ _)
    · rw [← List.append_assoc]
      exact hm.sublist.append (List.Sublist.refl _)
  bounded := by
    intro hpos
    rw [Mailbox.offer]
    dsimp only
    split
    · exact hm.bounded hpos
    · next hroom =>
        rw [queueFull, decide_eq_true hpos, Bool.true_and, decide_eq_true_eq] at hroom
        rw [List.length_append, List.length_singleton]
        omega

/-- The first event that waits is taken. -/
theorem Mailbox.Sound.take (hm : m.Sound maxQueueSize s) {event : ε} {rest : List ε}
    (hwaiting : m.waiting = event :: rest) :
    Mailbox.Sound maxQueueSize s { m with waiting := rest, taken := m.taken ++ [event] } where
  segment := hm.segment
  sublist := by
    have hsame : m.taken ++ [event] ++ rest = m.taken ++ m.waiting := by rw [hwaiting]; simp
    exact hsame ▸ hm.sublist
  bounded := by
    intro hpos
    have hbounded := hm.bounded hpos
    rw [hwaiting, List.length_cons] at hbounded
    exact Nat.le_of_succ_le hbounded

/-- **One action keeps the bus sound.** -/
theorem EventBus.Sound.step (hs : s.Sound maxQueueSize) (h : busStep maxQueueSize s a = some t) :
    t.Sound maxQueueSize := by
  have hpublished := published_busStep h
  have hdispatched : ∃ before, t.published = before ++ t.handedOver := by
    obtain ⟨before, hbefore⟩ := hs.dispatched
    obtain ⟨-, more, hmore, hhanded⟩ | ⟨-, event, hhanded, hsame⟩ := hpublished
    · exact ⟨before, by rw [hmore, hhanded, hbefore, List.append_assoc]⟩
    · exact ⟨before ++ [event], by rw [hsame, hbefore, hhanded]; simp⟩
  refine ⟨hdispatched, fun i m' hm' => ?_⟩
  obtain ⟨rfl, -, hpub, hhanded⟩ | ⟨m, hm, hcase⟩ := mailbox_busStep h hm'
  · obtain ⟨before, hbefore⟩ := hs.dispatched
    refine ⟨⟨before, ?_, ?_⟩, List.Sublist.refl _, fun _ => Nat.zero_le _⟩
    · rw [EventBus.dispatchedSoFar, hbefore, List.length_append, Nat.add_sub_cancel]
    · rw [hpub, hhanded, List.append_nil, hbefore]
  · have hold := hs.mailboxes i m hm
    obtain ⟨rfl, hquiet⟩ | ⟨event, rfl, hhanded, rfl⟩ | ⟨event, rest, rfl, hwaiting, rfl⟩ := hcase
    · exact hold.later (hpublished.resolve_right fun h => hquiet h.1).2
    · obtain ⟨-, _, -, hsame⟩ := hpublished.resolve_left fun h => h.1 rfl
      exact hold.offer hhanded hsame
    · exact (hold.later (hpublished.resolve_right fun h => nomatch h.1).2).take hwaiting

/-- A subscriber does not lag: its queue has room whenever an event comes. -/
def KeepsUp (maxQueueSize : ℕ) (i : ℕ) (s : EventBus ε) (a : BusAction ε) : Prop :=
  a = .dispatch → ∀ m, s.subscribers i = some m → queueFull maxQueueSize m.waiting = false

/-- One action keeps a mailbox that has lost nothing so, if its subscriber does
not lag. -/
theorem lossless_busStep (hs : ∀ m, s.subscribers i = some m → m.taken ++ m.waiting = m.offered)
    (hkeeps : KeepsUp maxQueueSize i s a) (h : busStep maxQueueSize s a = some t)
    (hm' : t.subscribers i = some m') : m'.taken ++ m'.waiting = m'.offered := by
  obtain ⟨rfl, -⟩ | ⟨m, hm, hcase⟩ := mailbox_busStep h hm'
  · rfl
  · have hold := hs m hm
    obtain ⟨rfl, -⟩ | ⟨event, hdispatch, -, rfl⟩ | ⟨event, rest, -, hwaiting, rfl⟩ := hcase
    · exact hold
    · rw [Mailbox.offer]
      dsimp only
      rw [hkeeps hdispatch m hm, if_neg Bool.false_ne_true, ← List.append_assoc, hold]
    · rw [← hold, hwaiting]
      simp

/-- **Every mailbox is sound in every state.** -/
theorem sound_of_reachable (h : Reachable (busStep maxQueueSize) {} t) : t.Sound maxQueueSize := by
  have hstart : EventBus.Sound maxQueueSize ({} : EventBus ε) := ⟨⟨[], rfl⟩, fun _ _ h => nomatch h⟩
  exact h.invariant hstart fun _ _ _ hs _ hstep => hs.step hstep

/-- A subscriber that keeps up has all that was offered, taken or waiting. -/
theorem lossless_of_keepsUp (h : Reaches (busStep maxQueueSize) (KeepsUp maxQueueSize i) {} t)
    (hm : t.subscribers i = some m) : m.taken ++ m.waiting = m.offered := by
  have hall : ∀ m, t.subscribers i = some m → m.taken ++ m.waiting = m.offered :=
    h.invariant (fun _ h => nomatch h) fun _ _ _ hs hcond hstep _ hm =>
      lossless_busStep hs hcond hstep hm
  exact hall m hm

/-- **What a subscriber gets.**  In every run, it gets some of the events that
were published since it subscribed and dispatched, each once and in the order in
which they were published, and no more than a queue of them waits.  If its queue
had room whenever an event came, it gets them all. -/
theorem mailbox_of_reachable (h : Reachable (busStep maxQueueSize) {} t)
    (hm : t.subscribers i = some m) :
    m.Sound maxQueueSize t ∧
      (Reaches (busStep maxQueueSize) (KeepsUp maxQueueSize i) {} t →
        m.taken ++ m.waiting = m.offered) :=
  ⟨(sound_of_reachable h).mailboxes i m hm, fun hkeeps => lossless_of_keepsUp hkeeps hm⟩

/-- Of three events the first was dispatched before it subscribed, and the last
comes to a full queue. -/
theorem mailbox_of_reachable_full :
    ∃ t : EventBus ℕ, Reachable (busStep 1) {} t ∧
      t.subscribers 0 = some ⟨[], [7, 8], [7], 1⟩ ∧ Mailbox.Sound 1 t ⟨[], [7, 8], [7], 1⟩ := by
  obtain ⟨t, hrun, hm⟩ : ∃ t : EventBus ℕ, replay (busStep 1) [.bindLoop, .publish 6, .dispatch,
      .publish 7, .subscribe 0, .publish 8, .dispatch, .dispatch, .take 0] {} = some t ∧
        t.subscribers 0 = some ⟨[], [7, 8], [7], 1⟩ := ⟨_, rfl, rfl⟩
  exact ⟨t, reachable_of_replay hrun, hm, (mailbox_of_reachable (reachable_of_replay hrun) hm).1⟩

/-! ## The notifications -/

/-- An event, as far as its readers go. -/
structure ServerEvent (D : Type) where
  type : String
  data : D

/-- The calls of `send_event` that `_route_events_to_notifications_background`
makes for an event; `status` is `data.get("status")`. -/
def routeEvent {D : Type} (status : D → Option String) (event : ServerEvent D) :
    Option (AlertEvent × D) :=
  if event.type = "sync.finished" ∧ status event.data = some "failed" then
    some (.syncFailure, event.data)
  else if event.type = "webhook.dead_letter" then some (.deadLetter, event.data)
  else none

/-- **Failed syncs and dead letters are notified of in order**, each once, by a
router that does not lag: what it has called for, and what it will, is what was
published since it subscribed. -/
theorem notified_in_order {D : Type} {status : D → Option String} {t : EventBus (ServerEvent D)}
    {m : Mailbox (ServerEvent D)}
    (h : Reaches (busStep maxQueueSize) (KeepsUp maxQueueSize i) {} t)
    (hm : t.subscribers i = some m) :
    ∃ before, t.published.filterMap (routeEvent status) =
      before ++ m.taken.filterMap (routeEvent status) ++
        (m.waiting ++ t.handedOver).filterMap (routeEvent status) := by
  have hsound := sound_of_reachable (h.mono fun _ _ _ => trivial)
  obtain ⟨before, -, hbefore⟩ := (hsound.mailboxes i m hm).segment
  refine ⟨before.filterMap (routeEvent status), ?_⟩
  rw [hbefore, ← lossless_of_keepsUp h hm]
  simp only [List.filterMap_append, List.append_assoc]

/-! ## The other subscribers -/

/-- An action of the bus, or of this subscriber. -/
def BusAction.concerns (i : ℕ) : BusAction ε → Bool
  | .subscribe j | .unsubscribe j | .take j => decide (j = i)
  | _ => true

/-- Two buses that are alike for a subscriber. -/
structure AlikeFor (i : ℕ) (s u : EventBus ε) : Prop where
  loop : s.loop = u.loop
  handedOver : s.handedOver = u.handedOver
  published : s.published = u.published
  subscriber : s.subscribers i = u.subscribers i

variable {u : EventBus ε}

/-- Two buses alike for a subscriber are so after one write to both. -/
theorem alikeFor_setMailbox (hs : AlikeFor i s u) (new : Option (Mailbox ε)) :
    AlikeFor i (s.setMailbox i new) (u.setMailbox i new) :=
  ⟨hs.loop, hs.handedOver, hs.published, by simp [EventBus.setMailbox]⟩

/-- What concerns the subscriber does the same to both. -/
theorem AlikeFor.busStep (hs : AlikeFor i s u) (hconcerns : a.concerns i = true)
    (h : Nebularr.busStep maxQueueSize s a = some t) :
    ∃ v, Nebularr.busStep maxQueueSize u a = some v ∧ AlikeFor i t v := by
  obtain ⟨hloop, hhanded, hpublished, hsubscriber⟩ := hs
  cases a with
  | bindLoop | closeLoop =>
      simp only [Nebularr.busStep, hloop] at h ⊢
      split at h
      · next hcan =>
          obtain rfl := Option.some.inj h
          exact ⟨_, if_pos hcan, rfl, hhanded, hpublished, hsubscriber⟩
      · cases h
  | publish event =>
      simp only [Nebularr.busStep, hloop] at h ⊢
      split at h
      · next hcan =>
          obtain rfl := Option.some.inj h
          exact ⟨_, if_pos hcan, rfl, congrArg (· ++ [event]) hhanded,
            congrArg (· ++ [event]) hpublished, hsubscriber⟩
      · next hcannot =>
          obtain rfl := Option.some.inj h
          exact ⟨_, if_neg hcannot, hloop, hhanded, hpublished, hsubscriber⟩
  | dispatch =>
      simp only [Nebularr.busStep, hloop, hhanded] at h ⊢
      split at h
      · obtain rfl := Option.some.inj h
        exact ⟨_, rfl, rfl, rfl, hpublished, congrArg (Option.map _) hsubscriber⟩
      · cases h
  | subscribe j | unsubscribe j =>
      obtain rfl : j = i := of_decide_eq_true hconcerns
      have hsofar : s.dispatchedSoFar = u.dispatchedSoFar := by
        rw [EventBus.dispatchedSoFar, EventBus.dispatchedSoFar, hhanded, hpublished]
      simp only [Nebularr.busStep, hloop, hsubscriber, hsofar] at h ⊢
      split at h
      · obtain rfl := Option.some.inj h
        exact ⟨_, rfl, alikeFor_setMailbox ⟨hloop, hhanded, hpublished, hsubscriber⟩ _⟩
      · cases h
  | take j =>
      obtain rfl : j = i := of_decide_eq_true hconcerns
      simp only [Nebularr.busStep, hsubscriber] at h ⊢
      split at h
      · split at h
        · obtain rfl := Option.some.inj h
          exact ⟨_, rfl, alikeFor_setMailbox ⟨hloop, hhanded, hpublished, hsubscriber⟩ _⟩
        · cases h
      · cases h

/-- Writing a mailbox leaves the others. -/
theorem subscribers_setMailbox_of_ne {j : ℕ} (hj : j ≠ i) (new : Option (Mailbox ε)) :
    (s.setMailbox j new).subscribers i = s.subscribers i :=
  Function.update_of_ne hj.symm _ _

/-- What concerns another subscriber does nothing to this one. -/
theorem AlikeFor.other (hs : AlikeFor i s u) (hother : a.concerns i = false)
    (h : Nebularr.busStep maxQueueSize s a = some t) : AlikeFor i t u := by
  have hmailbox : ∀ {j : ℕ} (new : Option (Mailbox ε)), j ≠ i → AlikeFor i (s.setMailbox j new) u :=
    fun new hj => ⟨hs.loop, hs.handedOver, hs.published,
      (subscribers_setMailbox_of_ne hj new).trans hs.subscriber⟩
  cases a with
  | bindLoop | closeLoop | publish event | dispatch => cases hother
  | subscribe j | unsubscribe j =>
      simp only [Nebularr.busStep] at h
      split at h
      · obtain rfl := Option.some.inj h
        exact hmailbox _ (of_decide_eq_false hother)
      · cases h
  | take j =>
      simp only [Nebularr.busStep] at h
      split at h
      · split at h
        · obtain rfl := Option.some.inj h
          exact hmailbox _ (of_decide_eq_false hother)
        · cases h
      · cases h

/-- The run without what the others do. -/
theorem replay_filter {actions : List (BusAction ε)} (hs : AlikeFor i s u)
    (h : replay (busStep maxQueueSize) actions s = some t) :
    ∃ v, replay (busStep maxQueueSize) (actions.filter (BusAction.concerns i)) u = some v ∧
      AlikeFor i t v := by
  induction actions generalizing s u with
  | nil =>
      obtain rfl := Option.some.inj h
      exact ⟨u, rfl, hs⟩
  | cons a rest ih =>
      obtain ⟨next, hfirst, hrest⟩ := Option.bind_eq_some_iff.mp h
      cases hconcerns : a.concerns i with
      | true =>
          obtain ⟨v, hv, halike⟩ := hs.busStep hconcerns hfirst
          obtain ⟨w, hw, hlast⟩ := ih halike hrest
          refine ⟨w, ?_, hlast⟩
          rw [List.filter_cons_of_pos hconcerns, replay, hv]
          exact hw
      | false =>
          obtain ⟨w, hw, hlast⟩ := ih (hs.other hconcerns hfirst) hrest
          refine ⟨w, ?_, hlast⟩
          rw [List.filter_cons_of_neg (by rw [hconcerns]; exact Bool.false_ne_true)]
          exact hw

/-- **The others make no difference.**  Two runs in which the publishers, the
loop and a subscriber do the same leave it with the same, whatever the other
subscribers do, and however far behind they are. -/
theorem subscriber_of_others {actions actions' : List (BusAction ε)}
    (hsame : actions.filter (BusAction.concerns i) = actions'.filter (BusAction.concerns i))
    (h : replay (busStep maxQueueSize) actions s = some t)
    (h' : replay (busStep maxQueueSize) actions' s = some u) :
    t.subscribers i = u.subscribers i := by
  have hrefl : AlikeFor i s s := ⟨rfl, rfl, rfl, rfl⟩
  obtain ⟨v, hv, halike⟩ := replay_filter hrefl h
  obtain ⟨v', hv', halike'⟩ := replay_filter hrefl h'
  rw [hsame, hv'] at hv
  obtain rfl := Option.some.inj hv
  exact halike.subscriber.trans halike'.subscriber.symm

/-- A reader that comes and goes, and one that never takes. -/
theorem subscriber_of_others_twoReaders :
    ∃ t u : EventBus ℕ,
      replay (busStep 256) [.bindLoop, .subscribe 0, .subscribe 1, .publish 7, .dispatch, .take 1,
        .unsubscribe 1, .take 0] {} = some t ∧
      replay (busStep 256)
        [.bindLoop, .subscribe 0, .subscribe 2, .publish 7, .dispatch, .take 0] {} = some u ∧
        t.subscribers 0 = u.subscribers 0 := by
  obtain ⟨t, hrun⟩ : ∃ t : EventBus ℕ, replay (busStep 256) [.bindLoop, .subscribe 0, .subscribe 1,
      .publish 7, .dispatch, .take 1, .unsubscribe 1, .take 0] {} = some t := ⟨_, rfl⟩
  obtain ⟨u, hrun'⟩ : ∃ u : EventBus ℕ, replay (busStep 256) [.bindLoop, .subscribe 0, .subscribe 2,
      .publish 7, .dispatch, .take 0] {} = some u := ⟨_, rfl⟩
  exact ⟨t, u, hrun, hrun', subscriber_of_others (by decide) hrun hrun'⟩

end Bus

end Nebularr
