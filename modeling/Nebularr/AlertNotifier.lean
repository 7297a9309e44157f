import Mathlib.Data.List.Induction
import Mathlib.Tactic.Common

/-!
# Health alerts

The notifier is shown every evaluation of the service's health and alerts on
those at or above its least state.  It remembers the state and the reasons it
delivered last and does not deliver them again.  An evaluation below the least
state leaves that memory alone, unless it is a recovery that is delivered: so an
incident that ended quietly is not told from one that goes on, and its twin is
suppressed.
-/

namespace Nebularr

/-- The keys of `_STATE_SEVERITY`. -/
inductive HealthState
  | ok
  | warning
  | critical
deriving DecidableEq, Repr

/-- `_STATE_SEVERITY`. -/
def HealthState.severity : HealthState → ℕ
  | ok => 0
  | warning => 1
  | critical => 2

/-- `Literal["warning", "critical"]`. -/
inductive AlertMinState
  | warning
  | critical
deriving DecidableEq, Repr

def AlertMinState.state : AlertMinState → HealthState
  | warning => .warning
  | critical => .critical

/-- `ALERT_EVENT_TYPES` of the notifier. -/
inductive AlertEvent
  | health
  | syncFailure
  | deadLetter
  | automationFailure
deriving DecidableEq, Repr

/-- The email settings. -/
structure AlertEmail where
  enabled : Bool
  host : String
  port : Int
  username : String
  password : String
  fromAddress : String
  toAddresses : List String
  starttls : Bool
deriving DecidableEq, Repr

/-- What `configure` sets; `F` are the floating-point numbers. -/
structure AlertSettings (F : Type) where
  webhookUrls : List String
  timeoutSeconds : F
  minState : AlertMinState
  notifyRecovery : Bool
  events : AlertEvent → Bool
  email : Option AlertEmail

/-- `_last_state` and `_last_reasons`. -/
structure AlertMemory where
  lastState : Option HealthState := none
  lastReasons : List String := []
deriving DecidableEq, Repr

/-- The two entries of a status payload that decide. -/
structure HealthStatus where
  healthState : Option String := none
  healthReasons : List String := []
deriving DecidableEq, Repr

/-- A state with its reasons in order. -/
structure HealthEvaluation where
  state : HealthState
  reasons : List String
deriving DecidableEq, Repr

/-- How the notifier reads a payload: a state it does not know is `ok`. -/
def HealthStatus.evaluation (status : HealthStatus) : HealthEvaluation where
  state :=
    match (status.healthState.getD "ok").toLower with
    | "warning" => .warning
    | "critical" => .critical
    | _ => .ok
  reasons := status.healthReasons.mergeSort fun a b => decide (a ≤ b)

section Alerts

variable {F : Type} (settings : AlertSettings F)

/-- `_email_ready`. -/
def AlertSettings.emailReady : Bool :=
  settings.email.any fun cfg => cfg.enabled && cfg.host ≠ "" && cfg.toAddresses ≠ []

/-- `_has_channels`. -/
def AlertSettings.hasChannels : Bool := settings.webhookUrls ≠ [] || settings.emailReady

/-- The last delivered alert is this evaluation. -/
def AlertMemory.Recalls (memory : AlertMemory) (e : HealthEvaluation) : Prop :=
  memory.lastState = some e.state ∧ memory.lastReasons = e.reasons

instance (memory : AlertMemory) (e : HealthEvaluation) : Decidable (memory.Recalls e) := by
  unfold AlertMemory.Recalls
  infer_instance

/-- `_should_send_alert`. -/
def shouldSendAlert (memory : AlertMemory) (e : HealthEvaluation) : Bool :=
  if memory.Recalls e then false
  else if e.state = .ok then
    settings.notifyRecovery &&
      (memory.lastState = some .warning || memory.lastState = some .critical)
  else decide (settings.minState.state.severity ≤ e.state.severity)

/-- `maybe_send_health_alert`: the memory after it, and whether it sent. -/
def maybeSendHealthAlert (delivers : Bool) (memory : AlertMemory) (status : HealthStatus) :
    AlertMemory × Bool :=
  if settings.hasChannels = false ∨ settings.events .health = false then (memory, false)
  else
    let e := status.evaluation
    if shouldSendAlert settings memory e && delivers then (⟨some e.state, e.reasons⟩, true)
    else (memory, false)

/-- The memory after a run of evaluations whose deliveries succeed. -/
def healthRun (statuses : List HealthStatus) : AlertMemory :=
  statuses.foldl (fun memory status => (maybeSendHealthAlert settings true memory status).1) {}

/-- Whether an evaluation sends an alert after the earlier ones. -/
def alerted (earlier : List HealthStatus) (status : HealthStatus) : Bool :=
  (maybeSendHealthAlert settings true (healthRun settings earlier) status).2

/-- At or above the least state. -/
def AtOrAbove (status : HealthStatus) : Prop :=
  settings.minState.state.severity ≤ status.evaluation.state.severity

instance (status : HealthStatus) : Decidable (AtOrAbove settings status) := by
  unfold AtOrAbove
  infer_instance

/-- A run alerts on new incidents and is silent on repetitions. -/
def NewIncidentsAlert (statuses : List HealthStatus) : Prop :=
  ∀ before previous current after, statuses = before ++ previous :: current :: after →
    (¬ AtOrAbove settings previous → AtOrAbove settings current →
      alerted settings (before ++ [previous]) current = true) ∧
    (current.evaluation = previous.evaluation →
      alerted settings (before ++ [previous]) current = false)

/-- The evaluations after which the memory is their own, or of a recovery: those
that alert, and those that tell of a recovery. -/
def Marks (status : HealthStatus) : Prop :=
  AtOrAbove settings status ∨ (status.evaluation.state = .ok ∧ settings.notifyRecovery = true)

instance (status : HealthStatus) : Decidable (Marks settings status) := by
  unfold Marks
  infer_instance

/-- The most recent of them. -/
def lastMark (earlier : List HealthStatus) : Option HealthStatus :=
  (earlier.filter fun status => Marks settings status).getLast?

variable {settings}

theorem healthRun_append (earlier : List HealthStatus) (status : HealthStatus) :
    healthRun settings (earlier ++ [status]) =
      (maybeSendHealthAlert settings true (healthRun settings earlier) status).1 := by
  rw [healthRun, List.foldl_append]
  rfl

theorem lastMark_append (earlier : List HealthStatus) (status : HealthStatus) :
    lastMark settings (earlier ++ [status]) =
      if Marks settings status then some status else lastMark settings earlier := by
  unfold lastMark
  rw [List.filter_append]
  by_cases h : Marks settings status
  · simp [h]
  · simp [h]

/-- What is at or above the least state is no `ok`. -/
theorem not_ok_of_atOrAbove {status : HealthStatus} (h : AtOrAbove settings status) :
    status.evaluation.state ≠ .ok := by
  intro hok
  rw [AtOrAbove, hok] at h
  cases hmin : settings.minState <;> simp [hmin, AlertMinState.state, HealthState.severity] at h

/-- An incident is alerted unless the memory is of its twin. -/
theorem shouldSendAlert_incident {memory : AlertMemory} {status : HealthStatus}
    (h : AtOrAbove settings status) :
    shouldSendAlert settings memory status.evaluation = true ↔
      ¬ memory.Recalls status.evaluation := by
  have hlevel : settings.minState.state.severity ≤ status.evaluation.state.severity := h
  rw [shouldSendAlert, if_neg (not_ok_of_atOrAbove h)]
  simp [hlevel]

/-- A memory recalls one evaluation at most. -/
theorem AlertMemory.Recalls.iff_eq {memory : AlertMemory} {e e' : HealthEvaluation}
    (h : memory.Recalls e) : memory.Recalls e' ↔ e = e' := by
  obtain ⟨hstate, hreasons⟩ := h
  constructor
  · intro ⟨hstate', hreasons'⟩
    have hs : e.state = e'.state := Option.some.inj (hstate.symm.trans hstate')
    have hr : e.reasons = e'.reasons := hreasons.symm.trans hreasons'
    cases e
    cases e'
    simp_all
  · rintro rfl
    exact ⟨hstate, hreasons⟩

section Live

variable (hchannels : settings.hasChannels = true) (hhealth : settings.events .health = true)
include hchannels hhealth

theorem maybeSendHealthAlert_live (memory : AlertMemory) (status : HealthStatus) :
    maybeSendHealthAlert settings true memory status =
      if shouldSendAlert settings memory status.evaluation then
        (⟨some status.evaluation.state, status.evaluation.reasons⟩, true)
      else (memory, false) := by
  simp [maybeSendHealthAlert, hchannels, hhealth]

/-- After an incident the memory is of it, whether it was alerted just then or
before. -/
theorem recalls_of_atOrAbove {memory : AlertMemory} {status : HealthStatus}
    (h : AtOrAbove settings status) :
    (maybeSendHealthAlert settings true memory status).1.Recalls status.evaluation := by
  rw [maybeSendHealthAlert_live hchannels hhealth]
  by_cases hsend : shouldSendAlert settings memory status.evaluation = true
  · rw [if_pos hsend]
    exact ⟨rfl, rfl⟩
  · rw [if_neg hsend]
    exact not_not.mp (mt (shouldSendAlert_incident h).mpr hsend)

/-- After a recovery it is of no incident. -/
theorem not_recalls_of_recovery {memory : AlertMemory} {status : HealthStatus}
    (hok : status.evaluation.state = .ok) (hnotify : settings.notifyRecovery = true)
    {e : HealthEvaluation} (he : e.state ≠ .ok) :
    ¬ (maybeSendHealthAlert settings true memory status).1.Recalls e := by
  rw [maybeSendHealthAlert_live hchannels hhealth]
  intro hrecalls
  by_cases hsend : shouldSendAlert settings memory status.evaluation = true
  · rw [if_pos hsend] at hrecalls
    exact he ((Option.some.inj hrecalls.1).symm.trans hok)
  · rw [if_neg hsend] at hrecalls
    apply hsend
    have hother : ¬ memory.Recalls status.evaluation := by
      intro hsame
      exact he ((hsame.iff_eq.mp hrecalls) ▸ hok)
    rw [shouldSendAlert, if_neg hother, if_pos hok, hnotify, hrecalls.1]
    cases hstate : e.state with
    | ok => exact absurd hstate he
    | warning => rfl
    | critical => rfl

/-- What does not mark leaves the memory alone. -/
theorem maybeSendHealthAlert_unmarked {memory : AlertMemory} {status : HealthStatus}
    (h : ¬ Marks settings status) :
    (maybeSendHealthAlert settings true memory status).1 = memory := by
  obtain ⟨hbelow, hquiet⟩ := not_or.mp h
  have hsend : shouldSendAlert settings memory status.evaluation = false := by
    unfold shouldSendAlert
    by_cases hok : status.evaluation.state = .ok
    · have hnotify : settings.notifyRecovery = false := by
        simpa [hok] using hquiet
      simp [hok, hnotify]
    · have hlevel : ¬ settings.minState.state.severity ≤ status.evaluation.state.severity := hbelow
      simp [hok, hlevel]
  rw [maybeSendHealthAlert_live hchannels hhealth, hsend]
  rfl

/-- **What the memory recalls**: an incident exactly when the last mark is it. -/
theorem recalls_healthRun_iff (earlier : List HealthStatus) {status : HealthStatus}
    (hincident : AtOrAbove settings status) :
    (healthRun settings earlier).Recalls status.evaluation ↔
      ∃ mark, lastMark settings earlier = some mark ∧
        mark.evaluation = status.evaluation := by
  induction earlier using List.reverseRecOn with
  | nil => simp [healthRun, lastMark, AlertMemory.Recalls]
  | append_singleton earlier last ih =>
      rw [healthRun_append, lastMark_append]
      by_cases hmarks : Marks settings last
      · rw [if_pos hmarks]
        simp only [Option.some.injEq, exists_eq_left']
        rcases hmarks with habove | ⟨hok, hnotify⟩
        · exact (recalls_of_atOrAbove hchannels hhealth habove).iff_eq
        · have hstate := not_ok_of_atOrAbove hincident
          have hnot : ¬ (maybeSendHealthAlert settings true (healthRun settings earlier)
              last).1.Recalls status.evaluation :=
            not_recalls_of_recovery hchannels hhealth hok hnotify hstate
          have hne : last.evaluation ≠ status.evaluation := by
            intro heq
            exact hstate (heq ▸ hok)
          simp [hnot, hne]
      · rw [if_neg hmarks, maybeSendHealthAlert_unmarked hchannels hhealth hmarks]
        exact ih

/-- An evaluation is not alerted right after its twin. -/
theorem not_alerted_repeated (before : List HealthStatus) {previous current : HealthStatus}
    (h : current.evaluation = previous.evaluation) :
    alerted settings (before ++ [previous]) current = false := by
  have hquiet : shouldSendAlert settings (healthRun settings (before ++ [previous]))
      current.evaluation = false := by
    rw [healthRun_append, maybeSendHealthAlert_live hchannels hhealth, h]
    by_cases hsend : shouldSendAlert settings (healthRun settings before) previous.evaluation = true
    · rw [if_pos hsend]
      exact if_pos ⟨rfl, rfl⟩
    · rw [if_neg hsend]
      exact Bool.eq_false_iff.mpr hsend
  rw [alerted, maybeSendHealthAlert_live hchannels hhealth, hquiet]
  rfl

/-- **When a run alerts on every new incident**: none of them is the twin of the
last evaluation that alerted or told of a recovery. -/
theorem newIncidentsAlert_iff (statuses : List HealthStatus) :
    NewIncidentsAlert settings statuses ↔
      ∀ before previous current after, statuses = before ++ previous :: current :: after →
        ¬ AtOrAbove settings previous → AtOrAbove settings current →
        ∀ mark, lastMark settings (before ++ [previous]) = some mark →
          mark.evaluation ≠ current.evaluation := by
  have halerted : ∀ earlier current, AtOrAbove settings current →
      (alerted settings earlier current = true ↔
        ∀ mark, lastMark settings earlier = some mark → mark.evaluation ≠ current.evaluation) := by
    intro earlier current habove
    have hsend : alerted settings earlier current =
        shouldSendAlert settings (healthRun settings earlier) current.evaluation := by
      rw [alerted, maybeSendHealthAlert_live hchannels hhealth]
      cases shouldSendAlert settings (healthRun settings earlier) current.evaluation <;> rfl
    rw [hsend, shouldSendAlert_incident habove, recalls_healthRun_iff hchannels hhealth _ habove]
    simp only [not_exists, not_and, ne_eq]
  constructor
  · intro h before previous current after hsplit hbelow habove
    exact (halerted _ current habove).mp
      ((h before previous current after hsplit).1 hbelow habove)
  · intro h before previous current after hsplit
    refine ⟨fun hbelow habove => ?_, not_alerted_repeated hchannels hhealth before⟩
    exact (halerted _ current habove).mpr (h before previous current after hsplit hbelow habove)

end Live

/-- A webhook, and no recovery notices. -/
def quietSettings : AlertSettings ℕ where
  webhookUrls := ["https://ntfy.sh/nebularr"]
  timeoutSeconds := 10
  minState := .critical
  notifyRecovery := false
  events := fun _ => true
  email := none

def criticalLag : HealthStatus := ⟨some "critical", ["sync lag"]⟩

/-- The first incident is alerted. -/
theorem newIncidentsAlert_firstLag : NewIncidentsAlert quietSettings [{}, criticalLag] := by
  refine (newIncidentsAlert_iff (by decide) rfl _).mpr ?_
  intro before previous current after hsplit hbelow habove mark hmark
  have hlength := congrArg List.length hsplit
  have hbefore : before = [] := by
    apply List.eq_nil_of_length_eq_zero
    simp only [List.length_append, List.length_cons, List.length_nil] at hlength
    omega
  subst hbefore
  obtain ⟨rfl, hrest⟩ := List.cons.inj hsplit
  have hnone : lastMark quietSettings [({} : HealthStatus)] = none := by decide +kernel
  rw [List.nil_append, hnone] at hmark
  cases hmark

/-- The second of two incidents with the same reasons is not, once a state of
`ok` has passed between them. -/
theorem not_newIncidentsAlert_secondLag :
    ¬ NewIncidentsAlert quietSettings [criticalLag, {}, criticalLag] := by
  intro h
  have halerted := (h [criticalLag] {} criticalLag [] rfl).1 (by decide +kernel)
    (by decide +kernel)
  revert halerted
  decide +kernel

end Alerts

end Nebularr
