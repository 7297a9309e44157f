import Nebularr.HistoryReach
import Nebularr.Transitions

/-!
# The watermark over a sequence of runs

An instance lives through incremental runs, each with its own answers, stop
requests and faults, and through the start-up of the service, which records
what the Arr is capable of and writes the watermark row with two nulls.

The row is written by both, and `coalesce` is what keeps the second from
wiping it.  `watermark_progress` is what holds over every such sequence.
-/

namespace Nebularr

section Progress

variable {T β γ : Type} [LinearOrder T]

/-- One `_sync_incremental` and its surroundings. -/
structure IncrementalCall (T β γ : Type) where
  source : IncrementalSource β γ
  history : HistoryClient T
  stop : StopSignal
  fault : FaultPlan

/-- The warehouse and an instance's row of `app.sync_state`; a row that is
missing reads as one with two nulls. -/
structure InstanceState (T : Type) where
  wh : Warehouse
  watermark : Watermark T

/-- What writes the row of an instance. -/
inductive InstanceAction (T β γ : Type)
  | incremental (call : IncrementalCall T β γ)
  | recordCapabilities

/-- The run of a call. -/
def IncrementalCall.outcome (call : IncrementalCall T β γ) (s : InstanceState T) :
    IncrementalOutcome T β :=
  syncIncremental call.source call.fault call.stop call.history s.watermark s.wh

/-- `_sync_incremental`, or `_record_capabilities`. -/
def InstanceState.step (s : InstanceState T) : InstanceAction T β γ → Option (InstanceState T)
  | .incremental call => some ⟨(call.outcome s).wh, (call.outcome s).watermark⟩
  | .recordCapabilities => some { s with watermark := s.watermark.update none none }

/-- The run refetched everything it had to: nothing when it only established
the watermark, and otherwise every chunk of ids its events name, each through
both of its transactions; and these are what it left in the warehouse. -/
def IncrementalCall.Complete (call : IncrementalCall T β γ) (s : InstanceState T) : Prop :=
  ∃ events, (call.history.listHistorySince s.watermark.time).1 = .ok events ∧
    ((s.watermark.time = none ∧ (call.outcome s).settled = []) ∨
      (call.outcome s).settled.map Prod.fst =
        slices call.source.chunkSize (changedIds call.source.key events)) ∧
    (∀ chunk ∈ (call.outcome s).settled, call.source.fetch chunk.1 = .ok chunk.2) ∧
    (call.outcome s).wh = (settle call.source (call.outcome s).settled
      ⟨call.source.scope.elim s.wh fun scope => scope.2 s.wh, (), 0⟩).wh

/-- Events the run read are not older than its watermark. -/
theorem HistoryClient.KeepsToDate.not_older {history : HistoryClient T}
    (hkeeps : history.KeepsToDate) {since : T} {events : List HistoryEvent}
    (h : (history.listHistorySince (some since)).1 = .ok events) :
    ∀ event ∈ events, ∀ t, history.dateOf event = some t → since ≤ t.instant := by
  by_cases hsupports : history.supportsHistory = true
  · rcases history.listHistorySince_eq_ok hsupports h with ⟨-, hsince⟩ | ⟨-, hpaged⟩
    · exact hkeeps since events hsince
    · exact history.not_older_of_mem_listHistoryPaged hpaged
  · unfold HistoryClient.listHistorySince at h
    rw [if_neg hsupports] at h
    obtain rfl := Except.ok.inj h
    exact fun event hevent => nomatch hevent

/-- A run keeps what the row says, or moves it after a complete ingest. -/
theorem IncrementalCall.outcome_spec (call : IncrementalCall T β γ) (s : InstanceState T) :
    (call.outcome s).watermark = s.watermark ∨
      call.Complete s ∧ ∃ events time id, latestTime call.history events = .ok time ∧
        (call.history.listHistorySince s.watermark.time).1 = .ok events ∧
        (call.outcome s).watermark = s.watermark.update (time.map Datetime.instant) id := by
  rcases syncIncremental_spec call.source call.fault call.stop call.history
    s.watermark s.wh with ⟨-, hkept⟩ | ⟨-, events, time, hrun⟩
  · exact Or.inl hkept
  · have hcomplete : call.Complete s :=
      ⟨events, hrun.read, hrun.complete, hrun.fetched, hrun.committed⟩
    exact Or.inr ⟨hcomplete, events, time, _, hrun.latest, hrun.read, hrun.written⟩

/-- One step changes the row only by a complete run, and nulls nothing. -/
theorem InstanceState.step_spec {s s' : InstanceState T} {a : InstanceAction T β γ}
    (h : s.step a = some s') :
    (s'.watermark = s.watermark ∨ ∃ call, a = .incremental call ∧ call.Complete s) ∧
      (s.watermark.time.isSome = true → s'.watermark.time.isSome = true) ∧
      (s.watermark.id.isSome = true → s'.watermark.id.isSome = true) := by
  cases a with
  | recordCapabilities =>
      obtain rfl := Option.some.inj h
      exact ⟨Or.inl rfl, id, id⟩
  | incremental call =>
      obtain rfl := Option.some.inj h
      rcases call.outcome_spec s with hkept | ⟨hcomplete, events, time, id, -, -, hwritten⟩
      · refine ⟨Or.inl hkept, ?_, ?_⟩
        · intro hset
          simpa only [hkept] using hset
        · intro hset
          simpa only [hkept] using hset
      · refine ⟨Or.inr ⟨call, rfl, hcomplete⟩, ?_, ?_⟩
        · intro hset
          simpa only [hwritten] using (s.watermark.update_isSome _ id).1 hset
        · intro hset
          simpa only [hwritten] using (s.watermark.update_isSome _ id).2 hset

/-- A run over an Arr that keeps to the date does not move the time back. -/
theorem InstanceState.step_time_le {s s' : InstanceState T} {a : InstanceAction T β γ}
    (hkeeps : ∀ call, a = .incremental call → call.history.KeepsToDate)
    (h : s.step a = some s') {since : T} (hsince : s.watermark.time = some since) :
    ∃ since', s'.watermark.time = some since' ∧ since ≤ since' := by
  cases a with
  | recordCapabilities =>
      obtain rfl := Option.some.inj h
      exact ⟨since, hsince, le_refl since⟩
  | incremental call =>
      obtain rfl := Option.some.inj h
      rcases call.outcome_spec s with hkept | ⟨-, events, time, id, hlatest, hread, hwritten⟩
      · exact ⟨since, by simpa only [hkept] using hsince, le_refl since⟩
      · rw [hsince] at hread
        cases time with
        | none =>
            refine ⟨since, ?_, le_refl since⟩
            simp [hwritten, Watermark.update, hsince]
        | some top =>
            obtain ⟨event, hevent, hdate⟩ := (latestTime_eq_ok hlatest).2 top rfl
            have hle := (hkeeps call rfl).not_older hread event hevent top hdate
            exact ⟨top.instant, by simp [hwritten, Watermark.update], hle⟩

/-- **The watermark moves after complete runs only.**  In every sequence of
runs and capability recordings, whatever breaks off: a step that changes the
row is a run that refetched all it had to; what is set stays set; and over an
Arr that keeps to the date, the time never moves back. -/
theorem watermark_progress {start s : InstanceState T} :
    (Reachable (InstanceState.step (β := β) (γ := γ)) start s →
      (∀ (a : InstanceAction T β γ) s', s.step a = some s' → s'.watermark ≠ s.watermark →
          ∃ call, a = .incremental call ∧ call.Complete s) ∧
        (start.watermark.time.isSome = true → s.watermark.time.isSome = true) ∧
        (start.watermark.id.isSome = true → s.watermark.id.isSome = true)) ∧
      (Reaches (InstanceState.step (β := β) (γ := γ))
          (fun _ a => ∀ call, a = .incremental call → call.history.KeepsToDate) start s →
        ∀ since, start.watermark.time = some since →
          ∃ since', s.watermark.time = some since' ∧ since ≤ since') := by
  refine ⟨fun h => ⟨?_, ?_, ?_⟩, fun h since hsince => ?_⟩
  · intro a s' hstep hchanged
    rcases (InstanceState.step_spec hstep).1 with hkept | hcomplete
    · exact absurd hkept hchanged
    · exact hcomplete
  · intro hset
    exact h.invariant hset fun s a s' hs _ hstep => (InstanceState.step_spec hstep).2.1 hs
  · intro hset
    exact h.invariant hset fun s a s' hs _ hstep => (InstanceState.step_spec hstep).2.2 hs
  · let inv : InstanceState T → Prop := fun s =>
      ∃ since', s.watermark.time = some since' ∧ since ≤ since'
    have hrun : inv s := by
      refine h.invariant (show inv start from ⟨since, hsince, le_refl since⟩) ?_
      intro s a s' hs hkeeps hstep
      obtain ⟨mid, hmid, hle⟩ := hs
      obtain ⟨since', hsince', hle'⟩ := InstanceState.step_time_le hkeeps hstep hmid
      exact ⟨since', hsince', hle.trans hle'⟩
    exact hrun

end Progress

/-! ### A run that moves the watermark on -/

/-- A Sonarr that has lost all its series. -/
def emptySonarr : SonarrClient where
  seriesRequest := .ok (.items [])
  seriesByIdRequest := fun _ => .error (.request (some 404) "NotFound")
  episodeRequest := fun _ _ _ => .ok (.items [])

/-- A run over a history of one event, the deletion of series 1 on April 2. -/
def deletionCall : IncrementalCall ℕ SeriesRefetch SonarrSeen where
  source := sonarrSource emptySonarr "default" ⟨1, "incremental", String.toLower⟩
  history := servingHistory aprilDates
    [{ id := some 8, date := some "2026-04-02T00:00:00Z", seriesId := some 1 }] true
  stop := .never
  fault := fun _ => none

/-- An instance whose history has been read up to April 1. -/
def aprilFirst : InstanceState ℕ := ⟨.empty, ⟨some 1, some 7⟩⟩

theorem deletion_moves_watermark_on :
    ((deletionCall.outcome aprilFirst).watermark = ⟨some 2, some 8⟩) ∧
      ∃ since, (deletionCall.outcome aprilFirst).watermark.time = some since ∧ 1 ≤ since := by
  refine ⟨by decide +kernel, ?_⟩
  refine (watermark_progress (s := ⟨_, _⟩)).2
    (.tail .refl ?_ (show aprilFirst.step (.incremental deletionCall) = some _ from rfl)) 1 rfl
  rintro call hcall
  obtain rfl := InstanceAction.incremental.inj hcall
  exact servingHistory_keepsToDate _ _ _

end Nebularr
