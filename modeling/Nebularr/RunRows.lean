import Nebularr.WebhookJobs

/-!
# Run rows

`run_sync` and `process_webhook_queue` open a run row in `sync_run` and in
`job_run_summary`, work, and close both.  `run_sync` closes them whatever its
work raises, a cancellation included.  A webhook job that raises after it
opened its rows fails as a job, and its rows stay as they are.

A row is opened and closed in transactions of their own.  The bookkeeping
writes are taken to succeed; everything else may raise, and `run_sync` may be
cancelled at any `await`.  An `await` that is cancelled does not stop the
thread it waits for, so a row can be opened, or closed, by a write that the
call no longer waits for.
-/

namespace Nebularr

/-! ## The two tables -/

/-- The `mode` of a run. -/
inductive RunMode
  | full
  | incremental
  | reconcile
  | webhook
deriving DecidableEq, Repr

/-- The `status` of a run row. -/
inductive RunStatus
  | running
  | success
  | failed
deriving DecidableEq, Repr

/-- A row of `warehouse.sync_run` or of `app.job_run_summary`; `records` is
`records_processed` in the one and `rows_written` in the other. -/
structure RunRow where
  source : Source
  mode : RunMode
  instanceName : String
  status : RunStatus := .running
  records : ℕ := 0
  errorMessage : Option String := none
deriving DecidableEq, Repr

/-- The tables with their sequences. -/
structure RunTables where
  syncRun : KeyedTable ℕ RunRow
  nextRunId : ℕ
  jobRunSummary : KeyedTable ℕ RunRow
  nextSummaryId : ℕ

/-- What `create_sync_run` returns. -/
structure RunIds where
  runId : ℕ
  summaryId : ℕ
deriving DecidableEq, Repr

/-- `create_sync_run`. -/
def createSyncRun (source : Source) (mode : RunMode) (inst : String) (t : RunTables) :
    RunTables × RunIds :=
  let row : RunRow := { source := source, mode := mode, instanceName := inst }
  ({ syncRun := t.syncRun.upsert t.nextRunId row fun _ => row
     nextRunId := t.nextRunId + 1
     jobRunSummary := t.jobRunSummary.upsert t.nextSummaryId row fun _ => row
     nextSummaryId := t.nextSummaryId + 1 },
    ⟨t.nextRunId, t.nextSummaryId⟩)

/-- `finish_sync_run`, with the summary id that both callers give. -/
def finishSyncRun (ids : RunIds) (status : RunStatus) (records : ℕ) (errorMessage : Option String)
    (t : RunTables) : RunTables :=
  let close : RunRow → RunRow := fun row =>
    { row with status := status, records := records, errorMessage := errorMessage }
  { t with
    syncRun := t.syncRun.updateWhere (fun id _ => decide (id = ids.runId)) close
    jobRunSummary := t.jobRunSummary.updateWhere (fun id _ => decide (id = ids.summaryId)) close }

/-- `update_sync_run_progress`: of the two updates only the first asks for a
row that is still running. -/
def updateSyncRunProgress (ids : RunIds) (records : ℕ) (t : RunTables) : RunTables :=
  { t with
    syncRun := t.syncRun.updateWhere
      (fun id row => decide (id = ids.runId) && decide (row.status = .running))
      fun row => { row with records := records }
    jobRunSummary := t.jobRunSummary.updateWhere (fun id _ => decide (id = ids.summaryId))
      fun row => { row with records := records } }

/-! ## `run_sync` -/

/-- An exception, as the handler reads it. -/
structure PyException where
  text : String
  typeName : String
deriving DecidableEq, Repr

/-- `str(exc) or type(exc).__name__`. -/
def PyException.message (exc : PyException) : String :=
  if exc.text = "" then exc.typeName else exc.text

def cancelledError : PyException := ⟨"", "CancelledError"⟩

/-- When the write of an `await` that was cancelled commits: before the write
of the handler, after it, or not before the call is over. -/
inductive CancelledWrite
  | first
  | second
  | pending
deriving DecidableEq, Repr

/-- What comes after the work of an instance. -/
inductive InstanceEnding
  | finished
  | publishRaised (exc : PyException)
  | finishCancelled (write : CancelledWrite)
deriving DecidableEq, Repr

/-- What happens in one round of the loop over the instances.  The work itself
(`_sync_sonarr_full`, `_sync_radarr_full`, `_sync_incremental`) reports its
progress and then returns its number of records or raises, a cancellation
included. -/
structure InstanceTurn where
  instanceName : String
  stopBefore : Bool := false
  /-- The client of the integration cannot be made. -/
  clientRaises : Bool := false
  /-- The `await` of `create_sync_run` is cancelled. -/
  createCancelled : Bool := false
  progress : List ℕ := []
  work : Except PyException ℕ
  interrupted : Bool := false
  ending : InstanceEnding := .finished
  /-- A further cancellation ends the call before the shielded write of the
  handler commits. -/
  cancelledAgain : Bool := false
  stopAfter : Bool := false

/-- The handler of `run_sync`. -/
def InstanceTurn.finalize (turn : InstanceTurn) (ids : RunIds) (records : ℕ) (exc : PyException)
    (t : RunTables) : RunTables :=
  if turn.cancelledAgain then t else finishSyncRun ids .failed records (some exc.message) t

/-- The closing write after work that returned. -/
def InstanceTurn.finish (turn : InstanceTurn) (ids : RunIds) (records : ℕ) (t : RunTables) :
    RunTables :=
  finishSyncRun ids (if turn.interrupted then .failed else .success) records
    (if turn.interrupted then some "stopped by shutdown signal" else none) t

/-- One instance: the tables when it is left, the ids it opened, and its number
of records unless it raised. -/
def syncInstance (source : Source) (mode : RunMode) (turn : InstanceTurn) (t : RunTables) :
    RunTables × RunIds × Option ℕ :=
  let (opened, ids) := createSyncRun source mode turn.instanceName t
  if turn.createCancelled then (opened, ids, none)
  else
    let worked := turn.progress.foldl (fun t records => updateSyncRunProgress ids records t) opened
    match turn.work with
    | .error exc => (turn.finalize ids 0 exc worked, ids, none)
    | .ok records =>
        match turn.ending with
        | .finished => (turn.finish ids records worked, ids, some records)
        | .publishRaised exc =>
            (turn.finalize ids records exc (turn.finish ids records worked), ids, none)
        | .finishCancelled .first =>
            (turn.finalize ids records cancelledError (turn.finish ids records worked), ids, none)
        | .finishCancelled .second =>
            (turn.finish ids records (turn.finalize ids records cancelledError worked), ids, none)
        | .finishCancelled .pending =>
            (turn.finalize ids records cancelledError worked, ids, none)

/-- How a call ends. -/
inductive CallResult
  | returned (status : Option RunStatus) (records : ℕ)
  | raised
deriving DecidableEq, Repr

/-- The loop over the instances. -/
def syncInstances (source : Source) (mode : RunMode) :
    List InstanceTurn → RunTables → RunTables × List RunIds × Option ℕ
  | [], t => (t, [], some 0)
  | turn :: rest, t =>
      if turn.stopBefore then (t, [], some 0)
      else if turn.clientRaises then (t, [], none)
      else
        match syncInstance source mode turn t with
        | (t', ids, none) => (t', [ids], none)
        | (t', ids, some records) =>
            if turn.stopAfter then (t', [ids], some records)
            else
              let (t'', opened, total) := syncInstances source mode rest t'
              (t'', ids :: opened, total.map (records + ·))

/-- What a call of `run_sync` meets. -/
structure RunSyncInput where
  source : Source
  mode : RunMode
  stopAtStart : Bool := false
  lockAcquired : Bool := true
  /-- None, where reading the integrations raises. -/
  integrations : Option (List InstanceTurn)
  stopAtEnd : Bool := false

/-- `run_sync`: the tables and the ids it opened; no status in the result of a
call that was skipped. -/
def runSync (input : RunSyncInput) (t : RunTables) : RunTables × List RunIds × CallResult :=
  if input.stopAtStart || !input.lockAcquired then (t, [], .returned none 0)
  else
    match input.integrations with
    | none => (t, [], .raised)
    | some turns =>
        match syncInstances input.source input.mode turns t with
        | (t', opened, none) => (t', opened, .raised)
        | (t', opened, some total) =>
            (t', opened, .returned (some (if input.stopAtEnd then .failed else .success)) total)

/-! ## `process_webhook_queue` -/

/-- What the drain writes besides the queue. -/
structure SyncTables where
  runs : RunTables
  warehouse : Warehouse

/-- What happens in one round of the loop over the claimed jobs. -/
structure WebhookTurn where
  job : WebhookJob
  clients : Integrations
  lower : String → String := String.toLower
  stopBefore : Bool := false
  /-- The write, or anything else between the opening and the closing, raises. -/
  workRaises : Bool := false

/-- The integration that the job names. -/
def WebhookTurn.hasIntegration (turn : WebhookTurn) : Bool :=
  match turn.job.source with
  | .sonarr => (turn.clients.sonarr turn.job.payload.instance).isSome
  | .radarr => (turn.clients.radarr turn.job.payload.instance).isSome

/-- `records_processed`: one for Sonarr, the movies fetched for Radarr. -/
def WebhookTurn.records (turn : WebhookTurn) : ℕ :=
  match turn.job.source with
  | .sonarr => 1
  | .radarr =>
      match turn.clients.radarr turn.job.payload.instance with
      | none => 0
      | some client =>
          match webhookMovies client (containsWord "delete" turn.job.eventType)
            (turn.job.payload.movieId.filter (· ≠ 0)) with
          | .ok movies => movies.length
          | .error _ => 0

/-- One job: the tables, the ids it opened, and whether it went through.  The
closing write of a Radarr job is part of the transaction that writes its
movies, and rolled back with it. -/
def processWebhookTurn (turn : WebhookTurn) (s : SyncTables) : SyncTables × Option RunIds × Bool :=
  if !turn.hasIntegration then (s, none, false)
  else
    let (runs, ids) := createSyncRun turn.job.source .webhook turn.job.payload.instance s.runs
    match processWebhookJob turn.clients
      ⟨ids.runId, "webhook", turn.lower⟩ turn.job s.warehouse with
    | .error _ => ({ s with runs := runs }, some ids, false)
    | .ok warehouse =>
        if turn.workRaises then ({ s with runs := runs }, some ids, false)
        else
          ({ runs := finishSyncRun ids .success turn.records none runs, warehouse := warehouse },
            some ids, true)

/-- The loop over the jobs of a batch: the tables, the ids opened, and the
numbers of jobs processed and failed. -/
def drainJobs : List WebhookTurn → SyncTables → SyncTables × List RunIds × ℕ × ℕ
  | [], s => (s, [], 0, 0)
  | turn :: rest, s =>
      if turn.stopBefore then (s, [], 0, 0)
      else
        let (s', ids, through) := processWebhookTurn turn s
        let (s'', opened, processed, failed) := drainJobs rest s'
        (s'', ids.toList ++ opened, if through then processed + 1 else processed,
          if through then failed else failed + 1)

/-- A round of the drain: a stop request, or the batch claimed. -/
structure DrainRound where
  stopBefore : Bool := false
  jobs : List WebhookTurn

/-- The rounds, until a stop request or an empty batch. -/
def drainRounds : List DrainRound → SyncTables → SyncTables × List RunIds × ℕ × ℕ
  | [], s => (s, [], 0, 0)
  | round :: rest, s =>
      if round.stopBefore || round.jobs.isEmpty then (s, [], 0, 0)
      else
        let (s', opened, processed, failed) := drainJobs round.jobs s
        let (s'', opened', processed', failed') := drainRounds rest s'
        (s'', opened ++ opened', processed + processed', failed + failed')

/-- `process_webhook_queue`: thirty rounds at most. -/
def processWebhookQueue (rounds : List DrainRound) (s : SyncTables) :
    SyncTables × List RunIds × ℕ × ℕ :=
  drainRounds (rounds.take 30) s

/-! ## Rows that are closed -/

namespace RunTables

variable {t t' t'' : RunTables} {ids : RunIds}

/-- What the two tables say of a run. -/
def statuses (t : RunTables) (ids : RunIds) : Option RunStatus × Option RunStatus :=
  ((t.syncRun.row ids.runId).map RunRow.status,
    (t.jobRunSummary.row ids.summaryId).map RunRow.status)

/-- Both rows of the run are there and have this status. -/
def Have (t : RunTables) (ids : RunIds) (status : RunStatus) : Prop :=
  t.statuses ids = (some status, some status)

/-- **The run is closed**: one terminal status, in both tables. -/
def Closed (t : RunTables) (ids : RunIds) : Prop :=
  ∃ status, status ≠ .running ∧ t.Have ids status

/-- The ids have been handed out. -/
def Issued (t : RunTables) (ids : RunIds) : Prop :=
  ids.runId < t.nextRunId ∧ ids.summaryId < t.nextSummaryId

/-- No run before the next one changes its status. -/
structure Extends (t t' : RunTables) : Prop where
  runId_le : t.nextRunId ≤ t'.nextRunId
  summaryId_le : t.nextSummaryId ≤ t'.nextSummaryId
  statuses : ∀ ids, t.Issued ids → t'.statuses ids = t.statuses ids

/-- Tables that are not written extend themselves. -/
theorem Extends.refl (t : RunTables) : t.Extends t := ⟨le_refl _, le_refl _, fun _ _ => rfl⟩

/-- Runs that were issued stay issued. -/
theorem Extends.issued (h : t.Extends t') (hids : t.Issued ids) : t'.Issued ids :=
  ⟨hids.1.trans_le h.runId_le, hids.2.trans_le h.summaryId_le⟩

/-- Two extensions in a row are one. -/
theorem Extends.trans (h : t.Extends t') (h' : t'.Extends t'') : t.Extends t'' where
  runId_le := h.runId_le.trans h'.runId_le
  summaryId_le := h.summaryId_le.trans h'.summaryId_le
  statuses ids hids := (h'.statuses ids (h.issued hids)).trans (h.statuses ids hids)

/-- A run with its status has it until it changes. -/
theorem closed_iff_of_have {status : RunStatus} (h : t.Have ids status) :
    t.Closed ids ↔ status ≠ .running := by
  constructor
  · rintro ⟨status', hne, hstatus'⟩
    have heq : some status = some status' := congrArg Prod.fst (h.symm.trans hstatus')
    rwa [Option.some.inj heq]
  · intro hne
    exact ⟨status, hne, h⟩

/-- The tables beside the run under these ids. -/
structure Touches (ids : RunIds) (t t' : RunTables) : Prop where
  runId_eq : t'.nextRunId = t.nextRunId
  summaryId_eq : t'.nextSummaryId = t.nextSummaryId
  statuses : ∀ other, other.runId ≠ ids.runId → other.summaryId ≠ ids.summaryId →
    t'.statuses other = t.statuses other

/-- Finishing a run touches that run. -/
theorem touches_finishSyncRun (ids : RunIds) (status : RunStatus) (records : ℕ)
    (errorMessage : Option String) (t : RunTables) :
    Touches ids t (finishSyncRun ids status records errorMessage t) := by
  refine ⟨rfl, rfl, ?_⟩
  intro other hrun hsummary
  simp [statuses, finishSyncRun, hrun, hsummary]

/-- The closing write gives both rows its status. -/
theorem Have.finishSyncRun {before : RunStatus} (h : t.Have ids before) (status : RunStatus)
    (records : ℕ) (errorMessage : Option String) :
    (finishSyncRun ids status records errorMessage t).Have ids status := by
  obtain ⟨hrun, hsummary⟩ := Prod.mk.inj h
  obtain ⟨row, hrow, -⟩ := Option.map_eq_some_iff.mp hrun
  obtain ⟨row', hrow', -⟩ := Option.map_eq_some_iff.mp hsummary
  simp [Have, statuses, Nebularr.finishSyncRun, hrow, hrow']

/-- Progress changes no status. -/
theorem statuses_updateSyncRunProgress (ids other : RunIds) (records : ℕ) (t : RunTables) :
    (updateSyncRunProgress ids records t).statuses other = t.statuses other := by
  have hsame : ∀ (table : KeyedTable ℕ RunRow) (p : ℕ → RunRow → Bool) (id : ℕ),
      ((table.updateWhere p fun row => { row with records := records }).row id).map RunRow.status =
        (table.row id).map RunRow.status := by
    intro table p id
    rw [KeyedTable.row_updateWhere, Option.map_map]
    congr 1
    funext row
    simp only [Function.comp]
    split <;> rfl
  exact Prod.ext (hsame _ _ _) (hsame _ _ _)

/-- Progress changes no status. -/
theorem statuses_progress (ids other : RunIds) (progress : List ℕ) (t : RunTables) :
    (progress.foldl (fun t records => updateSyncRunProgress ids records t) t).statuses other =
      t.statuses other := by
  induction progress generalizing t with
  | nil => rfl
  | cons records rest ih => rw [List.foldl_cons, ih, statuses_updateSyncRunProgress]

/-- Progress opens no run. -/
theorem next_progress (ids : RunIds) (progress : List ℕ) (t : RunTables) :
    (progress.foldl (fun t records => updateSyncRunProgress ids records t) t).nextRunId =
        t.nextRunId ∧
      (progress.foldl (fun t records => updateSyncRunProgress ids records t) t).nextSummaryId =
        t.nextSummaryId := by
  induction progress generalizing t with
  | nil => exact ⟨rfl, rfl⟩
  | cons records rest ih => exact ih (updateSyncRunProgress ids records t)

/-- The run is new in `t'`, and ends there with this status. -/
structure Opened (t t' : RunTables) (ids : RunIds) (status : RunStatus) : Prop where
  grows : t.Extends t'
  fresh : t.nextRunId ≤ ids.runId ∧ t.nextSummaryId ≤ ids.summaryId
  issued : t'.Issued ids
  ends : t'.Have ids status

/-- A run is created running. -/
theorem opened_createSyncRun (source : Source) (mode : RunMode) (inst : String) (t : RunTables) :
    Opened t (createSyncRun source mode inst t).1
      (createSyncRun source mode inst t).2 .running := by
  refine ⟨⟨Nat.le_succ _, Nat.le_succ _, ?_⟩, ⟨le_refl _, le_refl _⟩,
    ⟨Nat.lt_succ_self _, Nat.lt_succ_self _⟩, ?_⟩
  · intro ids hids
    simp [statuses, createSyncRun, KeyedTable.row_upsert_of_ne hids.1.ne,
      KeyedTable.row_upsert_of_ne hids.2.ne]
  · cases hrun : t.syncRun.row t.nextRunId <;>
      cases hsummary : t.jobRunSummary.row t.nextSummaryId <;>
      simp [Have, statuses, createSyncRun, hrun, hsummary]

/-- A run that is finished ends with its status. -/
theorem Opened.finish {status : RunStatus} (h : Opened t t' ids status) (status' : RunStatus)
    (records : ℕ) (errorMessage : Option String) :
    Opened t (finishSyncRun ids status' records errorMessage t') ids status' := by
  have htouches := touches_finishSyncRun ids status' records errorMessage t'
  refine ⟨⟨h.grows.runId_le, h.grows.summaryId_le, ?_⟩, h.fresh, h.issued,
    h.ends.finishSyncRun status' records errorMessage⟩
  intro other hother
  refine (htouches.statuses other ?_ ?_).trans (h.grows.statuses other hother)
  · exact (hother.1.trans_le h.fresh.1).ne
  · exact (hother.2.trans_le h.fresh.2).ne

/-- Progress leaves the run as it was opened. -/
theorem Opened.progress {status : RunStatus} (h : Opened t t' ids status) (progress : List ℕ) :
    Opened t (progress.foldl (fun t records => updateSyncRunProgress ids records t) t') ids
      status := by
  obtain ⟨hrun, hsummary⟩ := next_progress ids progress t'
  refine ⟨⟨?_, ?_, ?_⟩, h.fresh, ⟨?_, ?_⟩, ?_⟩
  · exact h.grows.runId_le.trans_eq hrun.symm
  · exact h.grows.summaryId_le.trans_eq hsummary.symm
  · intro other hother
    exact (statuses_progress ids other progress t').trans (h.grows.statuses other hother)
  · exact h.issued.1.trans_eq hrun.symm
  · exact h.issued.2.trans_eq hsummary.symm
  · exact (statuses_progress ids ids progress t').trans h.ends

/-- The runs a call opened, with the statuses they end with. -/
structure OpenedAll (t t' : RunTables) (opened : List RunIds) (ends : List RunStatus) : Prop where
  grows : t.Extends t'
  ends : List.Forall₂ (fun ids status => t'.Issued ids ∧ t'.Have ids status) opened ends

/-- Nothing is opened by nothing. -/
theorem OpenedAll.nil (t : RunTables) : OpenedAll t t [] [] := ⟨.refl t, .nil⟩

/-- One run that is opened. -/
theorem Opened.single {status : RunStatus} (h : Opened t t' ids status) :
    OpenedAll t t' [ids] [status] :=
  ⟨h.grows, .cons ⟨h.issued, h.ends⟩ .nil⟩

/-- What comes later leaves the runs before it alone. -/
theorem OpenedAll.append {opened opened' : List RunIds} {ends ends' : List RunStatus}
    (h : OpenedAll t t' opened ends) (h' : OpenedAll t' t'' opened' ends') :
    OpenedAll t t'' (opened ++ opened') (ends ++ ends') := by
  refine ⟨h.grows.trans h'.grows, List.rel_append ?_ h'.ends⟩
  refine h.ends.imp ?_
  rintro ids status ⟨hissued, hends⟩
  exact ⟨h'.grows.issued hissued, (h'.grows.statuses ids hissued).trans hends⟩

/-- **All are closed exactly when none ends as running.** -/
theorem OpenedAll.closed_iff {opened : List RunIds} {ends : List RunStatus}
    (h : OpenedAll t t' opened ends) :
    (∀ ids ∈ opened, t'.Closed ids) ↔ ∀ status ∈ ends, status ≠ .running := by
  have hends := h.ends
  clear h
  induction hends with
  | nil => exact iff_of_true (fun _ hid => (nomatch hid)) (fun _ hid => (nomatch hid))
  | cons hfirst _ ih =>
      rw [List.forall_mem_cons, List.forall_mem_cons]
      exact and_congr (closed_iff_of_have hfirst.2) ih

end RunTables

/-! ## How a turn leaves its run -/

/-- The status after the handler of `run_sync`. -/
def InstanceTurn.finalized (turn : InstanceTurn) (before : RunStatus) : RunStatus :=
  if turn.cancelledAgain then before else .failed

/-- The status of the closing write. -/
def InstanceTurn.finished (turn : InstanceTurn) : RunStatus :=
  if turn.interrupted then .failed else .success

/-- The status that an instance's run ends with. -/
def InstanceTurn.endStatus (turn : InstanceTurn) : RunStatus :=
  if turn.createCancelled then .running
  else
    match turn.work, turn.ending with
    | .error _, _ => turn.finalized .running
    | .ok _, .finished => turn.finished
    | .ok _, .publishRaised _ => turn.finalized turn.finished
    | .ok _, .finishCancelled .first => turn.finalized turn.finished
    | .ok _, .finishCancelled .second => turn.finished
    | .ok _, .finishCancelled .pending => turn.finalized .running

/-- The run is left open: it was cancelled as it was opened, or cancelled a
second time before any closing write. -/
def InstanceTurn.leftOpen (turn : InstanceTurn) : Bool :=
  turn.createCancelled ||
    turn.cancelledAgain &&
      match turn.work with
      | .error _ => true
      | .ok _ => decide (turn.ending = .finishCancelled .pending)

/-- A turn ends its run unless it leaves it open. -/
theorem InstanceTurn.endStatus_ne_running_iff (turn : InstanceTurn) :
    turn.endStatus ≠ .running ↔ turn.leftOpen = false := by
  unfold endStatus leftOpen finalized finished
  cases turn.createCancelled <;> cases turn.work <;> rcases turn.ending with _ | _ | _ | _ | _ <;>
    cases turn.cancelledAgain <;> cases turn.interrupted <;> simp

/-- The call goes on after the instance. -/
def InstanceTurn.goesOn (turn : InstanceTurn) : Bool :=
  !turn.createCancelled && turn.work.isOk && decide (turn.ending = .finished) && !turn.stopAfter

/-- The instances whose runs the call opens. -/
def openedTurns : List InstanceTurn → List InstanceTurn
  | [] => []
  | turn :: rest =>
      if turn.stopBefore || turn.clientRaises then []
      else turn :: if turn.goesOn then openedTurns rest else []

/-- **One instance** opens one run and leaves it with its status. -/
theorem opened_syncInstance (source : Source) (mode : RunMode) (turn : InstanceTurn)
    (t : RunTables) :
    RunTables.Opened t (syncInstance source mode turn t).1 (syncInstance source mode turn t).2.1
      turn.endStatus := by
  have hopened := RunTables.opened_createSyncRun source mode turn.instanceName t
  have hfinalize : ∀ {t' : RunTables} {ids : RunIds} {status : RunStatus} (records : ℕ)
      (exc : PyException), RunTables.Opened t t' ids status →
        RunTables.Opened t (turn.finalize ids records exc t') ids (turn.finalized status) := by
    intro t' ids status records exc h
    unfold InstanceTurn.finalize InstanceTurn.finalized
    split
    · exact h
    · exact h.finish .failed records _
  have hfinish : ∀ {t' : RunTables} {ids : RunIds} {status : RunStatus} (records : ℕ),
      RunTables.Opened t t' ids status →
        RunTables.Opened t (turn.finish ids records t') ids turn.finished := by
    intro t' ids status records h
    exact h.finish _ records _
  have hworked := hopened.progress turn.progress
  unfold syncInstance InstanceTurn.endStatus
  dsimp only
  split
  · exact hopened
  · cases turn.work with
    | error exc => exact hfinalize 0 exc hworked
    | ok records =>
        rcases turn.ending with _ | exc | (_ | _ | _)
        · exact hfinish records hworked
        · exact hfinalize records exc (hfinish records hworked)
        · exact hfinalize records cancelledError (hfinish records hworked)
        · exact hfinish records (hfinalize records cancelledError hworked)
        · exact hfinalize records cancelledError hworked

/-- The call goes on after an instance that did not raise, unless it is told to
stop. -/
theorem syncInstance_goesOn (source : Source) (mode : RunMode) (turn : InstanceTurn)
    (t : RunTables) :
    ((syncInstance source mode turn t).2.2.isSome && !turn.stopAfter) = turn.goesOn := by
  unfold syncInstance InstanceTurn.goesOn
  cases turn.createCancelled <;> cases turn.work <;> rcases turn.ending with _ | _ | _ | _ | _ <;>
    simp [Except.isOk, Except.toBool]

/-- **The instances of a call**: each run it opens ends with the status of its
turn. -/
theorem openedAll_syncInstances (source : Source) (mode : RunMode) (turns : List InstanceTurn)
    (t : RunTables) :
    RunTables.OpenedAll t (syncInstances source mode turns t).1
      (syncInstances source mode turns t).2.1
      ((openedTurns turns).map InstanceTurn.endStatus) := by
  induction turns generalizing t with
  | nil => exact .nil t
  | cons turn rest ih =>
      unfold syncInstances openedTurns
      by_cases hbefore : turn.stopBefore = true
      · simp only [hbefore, Bool.true_or, if_true]
        exact .nil t
      · by_cases hclient : turn.clientRaises = true
        · simp only [hbefore, hclient, Bool.or_true, if_true]
          exact .nil t
        · have hfirst := (opened_syncInstance source mode turn t).single
          have hgoes := syncInstance_goesOn source mode turn t
          simp only [hbefore, hclient, Bool.or_self, Bool.false_eq_true, if_false]
          generalize syncInstance source mode turn t = run at hfirst hgoes ⊢
          obtain ⟨t', ids, result⟩ := run
          cases result with
          | none =>
              rw [← hgoes]
              exact hfirst
          | some records =>
              rw [← hgoes]
              cases turn.stopAfter with
              | true => exact hfirst
              | false => exact hfirst.append (ih t')

/-- The runs of a call of `run_sync`. -/
def RunSyncInput.openedTurns (input : RunSyncInput) : List InstanceTurn :=
  if input.stopAtStart || !input.lockAcquired then []
  else Nebularr.openedTurns (input.integrations.getD [])

/-- **A sync** opens one run for each turn that it takes. -/
theorem openedAll_runSync (input : RunSyncInput) (t : RunTables) :
    RunTables.OpenedAll t (runSync input t).1 (runSync input t).2.1
      (input.openedTurns.map InstanceTurn.endStatus) := by
  unfold runSync RunSyncInput.openedTurns
  split
  · exact .nil t
  · cases input.integrations with
    | none => exact .nil t
    | some turns =>
        have hturns := openedAll_syncInstances input.source input.mode turns t
        dsimp only [Option.getD_some]
        generalize syncInstances input.source input.mode turns t = run at hturns ⊢
        obtain ⟨t', opened, result⟩ := run
        cases result with
        | none => exact hturns
        | some total => exact hturns

/-! ## How a job leaves its run -/

/-- What the job asks Arr for is answered; a delete asks for nothing, and so
does a Sonarr job without a series. -/
def WebhookTurn.fetchAnswered (turn : WebhookTurn) : Bool :=
  containsWord "delete" turn.job.eventType ||
    match turn.job.source with
    | .sonarr =>
        match turn.job.payload.seriesId.filter (· ≠ 0),
          turn.clients.sonarr turn.job.payload.instance with
        | some sid, some client => (client.listEpisodes sid).isOk
        | _, _ => true
    | .radarr =>
        match turn.clients.radarr turn.job.payload.instance with
        | some client => (webhookMovies client false (turn.job.payload.movieId.filter (· ≠ 0))).isOk
        | none => true

/-- The run is left open: the job has an integration, so its rows are opened,
and then something raises. -/
def WebhookTurn.leftOpen (turn : WebhookTurn) : Bool :=
  turn.hasIntegration && (turn.workRaises || !turn.fetchAnswered)

/-- The status that the run of a job ends with. -/
def WebhookTurn.endStatus (turn : WebhookTurn) : RunStatus :=
  if turn.workRaises || !turn.fetchAnswered then .running else .success

/-- The jobs that the drain processes. -/
def reachedTurns (rounds : List DrainRound) : List WebhookTurn :=
  ((rounds.take 30).takeWhile fun round => !(round.stopBefore || round.jobs.isEmpty)).flatMap
    fun round => round.jobs.takeWhile fun turn => !turn.stopBefore

/-- A job with an integration goes through exactly when its fetch is
answered. -/
theorem isOk_processWebhookJob {turn : WebhookTurn} (h : turn.hasIntegration = true)
    (tag : WriteTag) (wh : Warehouse) :
    (processWebhookJob turn.clients tag turn.job wh).isOk = turn.fetchAnswered := by
  unfold WebhookTurn.hasIntegration at h
  unfold processWebhookJob WebhookTurn.fetchAnswered
  cases hsource : turn.job.source with
  | sonarr =>
      rw [hsource] at h
      obtain ⟨client, hclient⟩ := Option.isSome_iff_exists.mp h
      simp only [processSonarrJob, integrationByName, hclient, bind, Except.bind]
      by_cases hdelete : containsWord "delete" turn.job.eventType = true
      · simp only [hdelete, if_true, Bool.true_or]
        split <;> rfl
      · simp only [hdelete, if_false, Bool.false_or, Bool.false_eq_true]
        cases turn.job.payload.seriesId.filter (· ≠ 0) with
        | none => rfl
        | some sid =>
            dsimp only
            cases client.listEpisodes sid <;> rfl
  | radarr =>
      rw [hsource] at h
      obtain ⟨client, hclient⟩ := Option.isSome_iff_exists.mp h
      simp only [processRadarrJob, integrationByName, hclient, bind, Except.bind]
      by_cases hdelete : containsWord "delete" turn.job.eventType = true
      · simp only [hdelete, Bool.true_or, webhookMovies, if_true]
        rfl
      · simp only [hdelete, Bool.false_or]
        cases webhookMovies client false (turn.job.payload.movieId.filter (· ≠ 0)) <;> rfl

/-- **One job** opens a run if it has an integration, and leaves it with its
status. -/
theorem openedAll_processWebhookTurn (turn : WebhookTurn) (s : SyncTables) :
    RunTables.OpenedAll s.runs (processWebhookTurn turn s).1.runs
      (processWebhookTurn turn s).2.1.toList
      (if turn.hasIntegration then [turn.endStatus] else []) := by
  unfold processWebhookTurn
  by_cases hintegration : turn.hasIntegration = true
  · have hopened := RunTables.opened_createSyncRun turn.job.source .webhook
      turn.job.payload.instance s.runs
    have hok := isOk_processWebhookJob hintegration
      ⟨(createSyncRun turn.job.source .webhook turn.job.payload.instance s.runs).2.runId, "webhook",
        turn.lower⟩
      s.warehouse
    simp only [hintegration, Bool.not_true, Bool.false_eq_true, if_false, if_true]
    unfold WebhookTurn.endStatus
    rw [← hok]
    cases processWebhookJob turn.clients _ turn.job s.warehouse with
    | error e =>
        simp only [Except.isOk, Except.toBool, Bool.not_false, Bool.or_true, if_true]
        exact hopened.single
    | ok warehouse =>
        cases turn.workRaises with
        | true =>
            simp only [Bool.true_or, if_true]
            exact hopened.single
        | false =>
            simp only [Except.isOk, Except.toBool, Bool.not_true, Bool.or_false, Bool.false_eq_true,
              if_false]
            exact (hopened.finish .success turn.records none).single
  · simp only [hintegration, Bool.not_false, if_true, Bool.false_eq_true, if_false]
    exact .nil s.runs

/-- **A batch of jobs** opens one run for each that has an integration. -/
theorem openedAll_drainJobs (jobs : List WebhookTurn) (s : SyncTables) :
    RunTables.OpenedAll s.runs (drainJobs jobs s).1.runs (drainJobs jobs s).2.1
      (((jobs.takeWhile fun turn => !turn.stopBefore).filter WebhookTurn.hasIntegration).map
        WebhookTurn.endStatus) := by
  induction jobs generalizing s with
  | nil => exact .nil s.runs
  | cons turn rest ih =>
      unfold drainJobs
      by_cases hbefore : turn.stopBefore = true
      · simp only [hbefore, if_true, Bool.not_true, Bool.false_eq_true, not_false_eq_true,
          List.takeWhile_cons_of_neg]
        exact .nil s.runs
      · have hfirst := openedAll_processWebhookTurn turn s
        have hall := hfirst.append (ih (processWebhookTurn turn s).1)
        rw [List.takeWhile_cons_of_pos (by simpa using hbefore), List.filter_cons]
        simp only [hbefore, Bool.false_eq_true, if_false]
        by_cases hintegration : turn.hasIntegration = true
        · rw [if_pos hintegration] at hall ⊢
          exact hall
        · rw [if_neg hintegration] at hall ⊢
          exact hall

/-- **The rounds of a drain** open one run for each such job. -/
theorem openedAll_drainRounds (rounds : List DrainRound) (s : SyncTables) :
    RunTables.OpenedAll s.runs (drainRounds rounds s).1.runs (drainRounds rounds s).2.1
      ((((rounds.takeWhile fun round => !(round.stopBefore || round.jobs.isEmpty)).flatMap
        fun round => round.jobs.takeWhile fun turn => !turn.stopBefore).filter
          WebhookTurn.hasIntegration).map WebhookTurn.endStatus) := by
  induction rounds generalizing s with
  | nil => exact .nil s.runs
  | cons round rest ih =>
      unfold drainRounds
      by_cases hstop : (round.stopBefore || round.jobs.isEmpty) = true
      · rw [List.takeWhile_cons_of_neg (by rw [hstop]; decide)]
        simp only [hstop, if_true]
        exact .nil s.runs
      · have hfirst := openedAll_drainJobs round.jobs s
        have hall := hfirst.append (ih (drainJobs round.jobs s).1)
        rw [List.takeWhile_cons_of_pos (by simpa using hstop), List.flatMap_cons,
          List.filter_append,
          List.map_append]
        simp only [hstop, Bool.false_eq_true, if_false]
        exact hall

/-! ## Both calls -/

/-- A call that opens run rows. -/
inductive SyncCall
  | runSync (input : RunSyncInput)
  | processWebhookQueue (rounds : List DrainRound)

/-- The run tables after a call, and the ids it opened. -/
def SyncCall.run (call : SyncCall) (s : SyncTables) : RunTables × List RunIds :=
  match call with
  | .runSync input => ((Nebularr.runSync input s.runs).1, (Nebularr.runSync input s.runs).2.1)
  | .processWebhookQueue rounds =>
      ((Nebularr.processWebhookQueue rounds s).1.runs, (Nebularr.processWebhookQueue rounds s).2.1)

/-- Every run the call opened is closed when it is over. -/
def SyncCall.ClosesRuns (call : SyncCall) (s : SyncTables) : Prop :=
  ∀ ids ∈ (call.run s).2, (call.run s).1.Closed ids

/-- No turn of the call leaves its run open. -/
def SyncCall.NoneLeftOpen : SyncCall → Prop
  | .runSync input => ∀ turn ∈ input.openedTurns, turn.leftOpen = false
  | .processWebhookQueue rounds => ∀ turn ∈ reachedTurns rounds, turn.leftOpen = false

/-- **Every opened run row is closed, with one status in both tables, exactly
when** no instance of `run_sync` is cancelled as its row is opened or a second
time before any closing write, and no webhook job with an integration raises
between the opening and the closing of its rows. -/
theorem closesRuns_iff (call : SyncCall) (s : SyncTables) :
    call.ClosesRuns s ↔ call.NoneLeftOpen := by
  cases call with
  | runSync input =>
      refine (openedAll_runSync input s.runs).closed_iff.trans ?_
      rw [List.forall_mem_map]
      exact forall₂_congr fun turn _ => turn.endStatus_ne_running_iff
  | processWebhookQueue rounds =>
      refine (openedAll_drainRounds (rounds.take 30) s).closed_iff.trans ?_
      simp only [List.forall_mem_map, List.mem_filter, and_imp]
      refine forall₂_congr fun turn _ => ?_
      unfold WebhookTurn.endStatus WebhookTurn.leftOpen
      cases turn.hasIntegration <;> cases (turn.workRaises || !turn.fetchAnswered) <;> simp

/-! ## Rows left running -/

/-- Tables without a row. -/
def noRuns : SyncTables :=
  ⟨⟨KeyedTable.empty, 1, KeyedTable.empty, 1⟩,
    ⟨KeyedTable.empty, KeyedTable.empty, KeyedTable.empty, KeyedTable.empty, KeyedTable.empty⟩⟩

/-- A Sonarr that answers every request with an error. -/
def brokenSonarr : SonarrClient where
  seriesRequest := .error (.request (some 500) "series")
  seriesByIdRequest _ := .error (.request (some 500) "series")
  episodeRequest _ _ _ := .error (.request (some 500) "episode")

/-- An import of series 7, while Sonarr is broken. -/
def unansweredImport : WebhookTurn where
  job := ⟨.sonarr, "Download", { seriesId := some 7 }⟩
  clients := ⟨fun _ => some brokenSonarr, fun _ => none⟩

/-- A full sync that is cancelled as it opens its run. -/
def cancelledOpening : RunSyncInput where
  source := .radarr
  mode := .full
  integrations := some [{ instanceName := "default", createCancelled := true, work := .ok 0 }]

/-- Both rows stay `running`. -/
theorem not_closesRuns_unansweredImport :
    ¬ (SyncCall.processWebhookQueue [{ jobs := [unansweredImport] }]).ClosesRuns noRuns ∧
      ¬ (SyncCall.runSync cancelledOpening).ClosesRuns noRuns := by
  have hopen : ∀ call : SyncCall, (⟨1, 1⟩ : RunIds) ∈ (call.run noRuns).2 →
      (call.run noRuns).1.statuses ⟨1, 1⟩ = (some .running, some .running) →
        ¬ call.ClosesRuns noRuns := by
    intro call hopened hstatuses hcloses
    obtain ⟨status, hne, hhave⟩ := hcloses ⟨1, 1⟩ hopened
    have heq : some RunStatus.running = some status :=
      congrArg Prod.fst (hstatuses.symm.trans hhave)
    exact hne (Option.some.inj heq).symm
  constructor
  · exact hopen _ (by decide) (by decide)
  · exact hopen _ (by decide) (by decide)

end Nebularr
