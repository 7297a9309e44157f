import Nebularr.AutomationRun
import Nebularr.Holdings
import Nebularr.Transitions

/-!
# Automations at the same time

Every automation has a lock of its own, so runs of different automations
overlap freely.  What they share is the ledger, and between two transactions
or two requests of one run anything may happen: the allowance is read, the
rows are selected, each attempt at a command is made and the items are recorded
at different moments.

`accepted` is ghost: the commands as instances took them on, in order.  A command
that is tried again may be in it several times.
-/

namespace Nebularr

/-- The items of a visit whose search is under way, the commands that have not
returned, and which attempt at the first of them is next. -/
structure Posting where
  visit : Visit
  items : List Int
  pending : List (List Int)
  attempt : ℕ := 1
deriving DecidableEq, Repr

/-- A run between reading its allowance and its end; `remaining` is
`budget_state`. -/
structure SearchRun where
  automation : Automation
  remaining : ℕ
  posting : Option Posting

/-- Where an attempt at a command leaves its run: at the next command, at the next
attempt, or with its visit over. -/
def SearchRun.next (run : SearchRun) (p : Posting) (rest : List (List Int)) : AttemptEnd → SearchRun
  | .returns => { run with posting := some { p with pending := rest, attempt := 1 } }
  | .repeats => { run with posting := some { p with attempt := p.attempt + 1 } }
  | .raises => { run with posting := none }

/-- A command that an instance took on, and the cooldown of the rule that sent
it. -/
structure AcceptedCommand where
  time : Int
  visit : Visit
  items : List Int
  cooldownDays : ℕ
deriving DecidableEq, Repr

/-- The ledger, the clock, the runs under way and the commands accepted. -/
structure SearchWorld where
  now : Int
  ledger : ActionLedger
  runs : ℕ → Option SearchRun
  nextRunId : ℕ
  accepted : List AcceptedCommand

/-- What can happen.  A selection reads whatever the warehouse holds by then. -/
inductive SearchAction
  | elapse (seconds : ℕ)
  | start (automation : Automation)
  | select (run : ℕ) (visit : Visit) (catalog : Catalog) (tagIds : List Int)
  | post (run : ℕ) (attempt : CommandAttempt)
  | record (run : ℕ)
  | finish (run : ℕ)

namespace SearchWorld

/-- Nobody at work; the ledger may hold anything. -/
def idle (now : Int) (ledger : ActionLedger) : SearchWorld := ⟨now, ledger, fun _ => none, 1, []⟩

variable (w : SearchWorld)

/-- Replace a run. -/
def setRun (r : ℕ) (run : Option SearchRun) : SearchWorld :=
  { w with runs := Function.update w.runs r run }

/-- No run holds the lock of the automation. -/
def lockFree (automationId : Int) : Bool :=
  (List.range w.nextRunId).all fun r => (w.runs r).all fun run => run.automation.id ≠ automationId

/-- What a run would select now. -/
def selection (run : SearchRun) (v : Visit) (c : Catalog) (tagIds : List Int) : List Int :=
  searchSelection run.automation v c w.ledger
    ⟨v.instanceName, w.now, run.automation.cooldownDays, tagIds⟩ run.remaining

/-- A run that has read its allowance. -/
def started (cap : ℕ) (a : Automation) : SearchWorld :=
  { w with nextRunId := w.nextRunId + 1 }.setRun w.nextRunId
    (some ⟨a, min a.budgetPerRun (cap - countRecentSearches w.now w.ledger), none⟩)

/-- A run that has selected; with nothing to search it goes on at once. -/
def selected (r : ℕ) (run : SearchRun) (v : Visit) (items : List Int) : SearchWorld :=
  w.setRun r (some { run with
    posting := if items = [] then none else some ⟨v, items, slices commandSearchChunk items, 1⟩ })

/-- The instance takes the command on. -/
def sent (run : SearchRun) (p : Posting) (chunk : List Int) : SearchWorld :=
  { w with accepted := w.accepted ++ [⟨w.now, p.visit, chunk, run.automation.cooldownDays⟩] }

/-- An attempt has come to something. -/
def posted (r : ℕ) (run : SearchRun) (p : Posting) (chunk : List Int) (rest : List (List Int))
    (result : Bool × AttemptEnd) : SearchWorld :=
  (if result.1 = true then w.sent run p chunk else w).setRun r (some (run.next p rest result.2))

/-- The ledger write of a visit, and its deduction from the budget. -/
def recorded (r : ℕ) (run : SearchRun) (p : Posting) : SearchWorld :=
  { w with
    ledger := writeLedger (p.items.map p.visit.item) ⟨w.now, run.automation.id, r⟩
      w.ledger }.setRun r
    (some { run with remaining := run.remaining - p.items.length, posting := none })

/-- **Runs, clock and ledger.**  Automations that are in dry run or do not
search send nothing and are left out. -/
def step (cap : ℕ) (settings : ArrSettings) (w : SearchWorld) : SearchAction → Option SearchWorld
  | .elapse seconds => some { w with now := w.now + seconds }
  | .start a =>
      if a.rule.hasSearch = true ∧ a.dryRun = false ∧ w.lockFree a.id = true then
        some (w.started cap a)
      else none
  | .select r v c tagIds => (w.runs r).bind fun run =>
      if run.posting = none then some (w.selected r run v (w.selection run v c tagIds)) else none
  | .post r attempt => (w.runs r).bind fun run => run.posting.bind fun p =>
      match p.pending with
      | [] => none
      | chunk :: rest => some (w.posted r run p chunk rest
          (attempt.comesTo (commandRequest settings p.visit.entity) p.attempt))
  | .record r => (w.runs r).bind fun run => run.posting.bind fun p =>
      if p.pending = [] then some (w.recorded r run p) else none
  | .finish r => (w.runs r).bind fun run =>
      if run.posting = none then some (w.setRun r none) else none

/-- The items a run has selected and not recorded. -/
def held (r : ℕ) : List ItemKey :=
  ((w.runs r).bind SearchRun.posting).elim [] fun p => p.items.map p.visit.item

/-! ## What a step does -/

variable {w : SearchWorld} {cap : ℕ} {settings : ArrSettings}

/-- After a run is written, it is the one written or was there before. -/
theorem runs_setRun {r r' : ℕ} {next : Option SearchRun} {run' : SearchRun}
    (h : (w.setRun r next).runs r' = some run') :
    (r' = r ∧ next = some run') ∨ (r' ≠ r ∧ w.runs r' = some run') := by
  by_cases heq : r' = r
  · subst heq
    simp only [setRun, Function.update_self] at h
    exact Or.inl ⟨rfl, h⟩
  · simp only [setRun, Function.update_of_ne heq] at h
    exact Or.inr ⟨heq, h⟩

/-- What holds of every run still does when it holds of the replacement. -/
theorem forall_runs_setRun {r : ℕ} {next : Option SearchRun} {P : ℕ → SearchRun → Prop}
    (hnext : ∀ run', next = some run' → P r run')
    (hold : ∀ r' run', w.runs r' = some run' → P r' run') :
    ∀ r' run', (w.setRun r next).runs r' = some run' → P r' run' := by
  intro r' run' hrun'
  rcases runs_setRun hrun' with ⟨rfl, hsome⟩ | ⟨-, hrun'⟩
  · exact hnext run' hsome
  · exact hold r' run' hrun'

/-- A command that is taken on and returns leaves the run with the rest of its
visit to post. -/
theorem runs_posted {r r' : ℕ} {run run' : SearchRun} {p : Posting} {chunk : List Int}
    {rest : List (List Int)}
    (h : (w.posted r run p chunk rest (true, .returns)).runs r' = some run') :
    (r' = r ∧ run' = { run with posting := some { p with pending := rest, attempt := 1 } }) ∨
      (r' ≠ r ∧ w.runs r' = some run') := by
  rcases runs_setRun h with ⟨hr, hsome⟩ | hother
  · exact Or.inl ⟨hr, (Option.some.inj hsome).symm⟩
  · exact Or.inr hother

/-- It joins those accepted before. -/
theorem mem_accepted_posted {r : ℕ} {run : SearchRun} {p : Posting} {chunk : List Int}
    {rest : List (List Int)} {e : AcceptedCommand} :
    e ∈ (w.posted r run p chunk rest (true, .returns)).accepted ↔
      e ∈ w.accepted ∨ e = ⟨w.now, p.visit, chunk, run.automation.cooldownDays⟩ := by
  rw [← List.mem_singleton, ← List.mem_append]
  rfl

/-- Writing a run leaves the others. -/
theorem runs_setRun_of_ne {r r' : ℕ} {next : Option SearchRun} (h : r' ≠ r) :
    (w.setRun r next).runs r' = w.runs r' := Function.update_of_ne h _ _

/-- Writing a run leaves what the others hold. -/
theorem held_setRun_of_ne {r r' : ℕ} {next : Option SearchRun} (h : r' ≠ r) :
    (w.setRun r next).held r' = w.held r' := by
  simp [held, setRun, Function.update_of_ne h]

/-- A run that is written holds the items it is posting. -/
theorem held_setRun_self {r : ℕ} {next : Option SearchRun} :
    (w.setRun r next).held r =
      (next.bind SearchRun.posting).elim [] fun p => p.items.map p.visit.item := by
  simp [held, setRun]

/-- A run that holds no more than the one it replaces shares nothing either. -/
theorem exclusive_setRun {r : ℕ} {next : Option SearchRun} (h : Exclusive w.held)
    (hsub : ((w.setRun r next).held r).Sublist (w.held r)) : Exclusive (w.setRun r next).held := by
  refine h.shrink fun r' => ?_
  by_cases hr : r' = r
  · subst hr
    exact hsub
  · rw [held_setRun_of_ne hr]

/-- A run starts for a rule that searches. -/
theorem step_start {a : Automation} {w' : SearchWorld}
    (h : w.step cap settings (.start a) = some w') :
    a.rule.hasSearch = true ∧ w' = w.started cap a := by
  simp only [step] at h
  split at h
  · next hguard => exact ⟨hguard.1, (Option.some.inj h).symm⟩
  · cases h

/-- A visit selects for a run that is not posting. -/
theorem step_select {r : ℕ} {v : Visit} {c : Catalog} {tagIds : List Int} {w' : SearchWorld}
    (h : w.step cap settings (.select r v c tagIds) = some w') :
    ∃ run, w.runs r = some run ∧ run.posting = none ∧
      w' = w.selected r run v (w.selection run v c tagIds) := by
  obtain ⟨run, hrun, h⟩ := Option.bind_eq_some_iff.mp h
  split at h
  · next hnone => exact ⟨run, hrun, hnone, (Option.some.inj h).symm⟩
  · cases h

/-- An attempt posts the first of the pending commands. -/
theorem step_post {r : ℕ} {attempt : CommandAttempt} {w' : SearchWorld}
    (h : w.step cap settings (.post r attempt) = some w') :
    ∃ run p chunk rest, w.runs r = some run ∧ run.posting = some p ∧
      p.pending = chunk :: rest ∧ w' = w.posted r run p chunk rest
        (attempt.comesTo (commandRequest settings p.visit.entity) p.attempt) := by
  obtain ⟨run, hrun, h⟩ := Option.bind_eq_some_iff.mp h
  obtain ⟨p, hp, h⟩ := Option.bind_eq_some_iff.mp h
  split at h
  · cases h
  · next chunk rest hpending =>
      exact ⟨run, p, chunk, rest, hrun, hp, hpending, (Option.some.inj h).symm⟩

/-- The ledger is written when no command is pending. -/
theorem step_record {r : ℕ} {w' : SearchWorld} (h : w.step cap settings (.record r) = some w') :
    ∃ run p, w.runs r = some run ∧ run.posting = some p ∧ p.pending = [] ∧
      w' = w.recorded r run p := by
  obtain ⟨run, hrun, h⟩ := Option.bind_eq_some_iff.mp h
  obtain ⟨p, hp, h⟩ := Option.bind_eq_some_iff.mp h
  split at h
  · next hnone => exact ⟨run, p, hrun, hp, hnone, (Option.some.inj h).symm⟩
  · cases h

/-- A run finishes when it is not posting. -/
theorem step_finish {r : ℕ} {w' : SearchWorld} (h : w.step cap settings (.finish r) = some w') :
    ∃ run, w.runs r = some run ∧ run.posting = none ∧ w' = w.setRun r none := by
  obtain ⟨run, hrun, h⟩ := Option.bind_eq_some_iff.mp h
  split at h
  · next hnone => exact ⟨run, hrun, hnone, (Option.some.inj h).symm⟩
  · cases h

end SearchWorld

end Nebularr
