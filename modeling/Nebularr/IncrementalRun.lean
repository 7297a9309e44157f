import Nebularr.Watermark

/-!
# The incremental run

`_sync_incremental`: refresh the scope fields, read the history since the
watermark, refetch what it names chunk by chunk, and move the watermark to the
newest date that was read.  The two sources differ in what they refetch and
are one function otherwise.

A run may break off anywhere.  What it has committed by then is what counts,
so the faults of a run are a plan over the points between two commits: a
request that fails, a transaction that does not commit, a progress report
that raises.  Whatever the plan, `syncIncremental_spec` says that the
watermark row is written only after the last chunk.
-/

namespace Nebularr

/-- The stop event as the checks of a run read it.  Nothing in the program
clears it once it is set. -/
structure StopSignal where
  isSet : ℕ → Bool
  stays : ∀ n, isSet n = true → isSet (n + 1) = true

/-- A program nobody stops. -/
def StopSignal.never : StopSignal := ⟨fun _ => false, fun _ h => h⟩

/-- The stretches of a run that end with a commit, or with the run. -/
inductive FaultPoint
  | scope
  | history
  | write (chunk : ℕ)
  | reconcile (chunk : ℕ)
  | progress (chunk : ℕ)
  | store
  | finish
deriving DecidableEq, Repr

/-- Where a run raises, besides its requests. -/
abbrev FaultPlan := FaultPoint → Option SyncError

/-! ## The two sources -/

/-- What `_sync_incremental` does differently for Sonarr and for Radarr.  An
answer `β` is what a chunk of ids was fetched as, `γ` its seen sets. -/
structure IncrementalSource (β γ : Type) where
  key : HistoryEvent → Option Int
  chunkSize : ℕ+
  scope : Option (ℕ × (Warehouse → Warehouse))
  fetch : List Int → Except SyncError β
  write : β → WriteState Unit → WriteState γ
  reconcile : β → WriteState γ → WriteState Unit

/-- What `_refresh_scope_fields` writes, and how many rows: nothing when it is
switched off, when the list call fails and when the list is empty. -/
def scopeSeries (client : SonarrClient) (inst : String) (tag : WriteTag) :
    Option (ℕ × (Warehouse → Warehouse)) :=
  if client.incrementalScopeRefresh then
    match client.listSeries with
    | .error _ => none
    | .ok [] => none
    | .ok (row :: rows) =>
        some (((row :: rows).filter fun row => row.id ≠ 0).length,
          writeScopeSeries inst tag (row :: rows))
  else none

def scopeMovies (client : RadarrClient) (inst : String) (tag : WriteTag) :
    Option (ℕ × (Warehouse → Warehouse)) :=
  if client.incrementalScopeRefresh then
    match client.listMovies with
    | .error _ => none
    | .ok [] => none
    | .ok (row :: rows) =>
        some (((row :: rows).filter fun row => row.id ≠ 0).length,
          writeScopeMovies inst tag (row :: rows))
  else none

/-- `source == "sonarr"`. -/
def sonarrSource (client : SonarrClient) (inst : String) (tag : WriteTag) :
    IncrementalSource SeriesRefetch SonarrSeen where
  key := HistoryEvent.seriesId
  chunkSize := fetchChunkSize client.maxParallelRequests
  scope := scopeSeries client inst tag
  fetch := fetchSeriesChunk client
  write := fun chunk s => writeSonarrChunk inst tag chunk.present ⟨s.wh, {}, s.records⟩
  reconcile := fun chunk s =>
    ⟨reconcileIncrementalSonarr inst s.seen chunk.deleted s.wh, (), s.records⟩

/-- The other source. -/
def radarrSource (client : RadarrClient) (inst : String) (tag : WriteTag) :
    IncrementalSource MovieRefetch RadarrSeen where
  key := HistoryEvent.movieId
  chunkSize := fetchChunkSize client.maxParallelRequests
  scope := scopeMovies client inst tag
  fetch := fetchMovieChunk client
  write := fun chunk s => writeRadarrChunk inst tag chunk.present ⟨s.wh, {}, s.records⟩
  reconcile := fun chunk s =>
    ⟨reconcileIncrementalRadarr inst s.seen chunk.deleted s.wh, (), s.records⟩

/-! ## The run -/

/-- The ingest under way: what is committed, and the chunks that are through
both of their transactions, with their answers. -/
structure Refetched (β : Type) where
  write : WriteState Unit
  settled : List (List Int × β) := []

/-- What a run leaves: the warehouse and the watermark row, what the client
believes of `history/since`, the chunks settled, whether the watermark row was
written, and what the call returned. -/
structure IncrementalOutcome (T β : Type) where
  wh : Warehouse
  watermark : Watermark T
  supportsHistorySince : Bool
  settled : List (List Int × β)
  stored : Bool
  result : Except SyncError ℕ

section Run

variable {T β γ : Type} (src : IncrementalSource β γ)
  (fault : FaultPlan) (stop : StopSignal)

/-- The body of the ingest loop: the gathers, the chunk write, the reconcile
step and the progress report. -/
def refetchChunk (n : ℕ) (ids : List Int) (s : Refetched β) : Refetched β × Option SyncError :=
  match src.fetch ids with
  | .error e => (s, some e)
  | .ok answer =>
      match fault (.write n) with
      | some e => (s, some e)
      | none =>
          let written := src.write answer s.write
          match fault (.reconcile n) with
          | some e => ({ s with write := ⟨written.wh, (), written.records⟩ }, some e)
          | none =>
              (⟨src.reconcile answer written, s.settled ++ [(ids, answer)]⟩, fault (.progress n))

/-- The answers written and reconciled, one after the other. -/
def settle (chunks : List (List Int × β)) (s : WriteState Unit) : WriteState Unit :=
  chunks.foldl (fun s chunk => src.reconcile chunk.2 (src.write chunk.2 s)) s

/-- `_ingest_sonarr_history_changes` and `_ingest_radarr_history_changes`. -/
def ingestHistoryChanges (events : List HistoryEvent) (wh : Warehouse) :
    LoopExit SyncError (Refetched β) :=
  tornLoop stop.isSet (refetchChunk src fault) 0
    (slices src.chunkSize (changedIds src.key events)) ⟨⟨wh, (), 0⟩, []⟩

/-- The part of the run after the history has been read. -/
def ingestOrEstablish (watermark : Watermark T) (scopeRows : ℕ) (events : List HistoryEvent)
    (wh : Warehouse) : LoopExit SyncError (Refetched β) :=
  if watermark.time.isNone ∨ events = [] then ⟨⟨⟨wh, (), scopeRows⟩, []⟩, 0, false, none⟩
  else ingestHistoryChanges src fault stop events wh

/-- The end of the run: an interrupted ingest must not advance the watermark. -/
def closeIncremental (watermark : Watermark T) (supportsHistorySince : Bool)
    (time : Option (Datetime T)) (id : Option Int) (exit : LoopExit SyncError (Refetched β)) :
    IncrementalOutcome T β :=
  let state := exit.state
  let unstored := fun result : Except SyncError ℕ =>
    (⟨state.write.wh, watermark, supportsHistorySince, state.settled, false, result⟩ :
      IncrementalOutcome T β)
  match exit.error with
  | some e => unstored (.error e)
  | none =>
      if stop.isSet exit.checks then unstored (.ok state.write.records)
      else
        match fault .store with
        | some e => unstored (.error e)
        | none =>
            ⟨state.write.wh, watermark.update (time.map Datetime.instant) id,
              supportsHistorySince, state.settled, true,
              match fault .finish with
              | some e => .error e
              | none => .ok state.write.records⟩

/-- `_sync_incremental`. -/
def syncIncremental [LinearOrder T] (history : HistoryClient T) (watermark : Watermark T)
    (wh : Warehouse) :
    IncrementalOutcome T β :=
  match fault .scope with
  | some e => ⟨wh, watermark, history.supportsHistorySince, [], false, .error e⟩
  | none =>
      let scopeRows := src.scope.elim 0 Prod.fst
      let refreshed := src.scope.elim wh fun scope => scope.2 wh
      let reply := history.listHistorySince watermark.time
      let broken := fun e : SyncError =>
        (⟨refreshed, watermark, reply.2, [], false, .error e⟩ : IncrementalOutcome T β)
      match fault .history, reply.1 with
      | some e, _ => broken e
      | none, .error e => broken e
      | none, .ok events =>
          match latestTime history events with
          | .error e => broken e
          | .ok time =>
              closeIncremental fault stop watermark reply.2 time (latestId events)
                (ingestOrEstablish src fault stop watermark scopeRows events refreshed)

variable {src fault stop}

/-! ## Without faults -/

/-- **Nothing breaks off.**  An ingest without faults is the plain loop of the
source's gathers and writes. -/
theorem ingestHistoryChanges_of_no_fault (hnone : ∀ point, fault point = none)
    (whole : β → WriteState Unit → WriteState Unit)
    (hwhole : ∀ answer s, src.reconcile answer (src.write answer s) = whole answer s)
    (events : List HistoryEvent) (wh : Warehouse) :
    (ingestHistoryChanges src fault stop events wh).project Refetched.write =
      chunkLoop stop.isSet (fun ids s => (src.fetch ids).map (whole · s)) 0
        (slices src.chunkSize (changedIds src.key events)) ⟨wh, (), 0⟩ := by
  refine project_tornLoop Refetched.write _ ?_ _ 0 ⟨⟨wh, (), 0⟩, []⟩
  intro n ids s
  unfold refetchChunk
  cases hfetch : src.fetch ids with
  | error e => simp [Except.map]
  | ok answer => simp [Except.map, hnone, hwhole]

/-- A Sonarr run's ingest without faults. -/
theorem ingestHistoryChanges_sonarr (hnone : ∀ point, fault point = none)
    (client : SonarrClient) (inst : String) (tag : WriteTag) (events : List HistoryEvent)
    (wh : Warehouse) :
    (ingestHistoryChanges (sonarrSource client inst tag) fault stop events wh).project
        Refetched.write =
      ingestSonarrHistoryChanges client stop.isSet inst tag events wh :=
  ingestHistoryChanges_of_no_fault hnone (ingestSeriesChunk inst tag) (fun _ _ => rfl) events wh

/-- A Radarr run's ingest without faults. -/
theorem ingestHistoryChanges_radarr (hnone : ∀ point, fault point = none)
    (client : RadarrClient) (inst : String) (tag : WriteTag) (events : List HistoryEvent)
    (wh : Warehouse) :
    (ingestHistoryChanges (radarrSource client inst tag) fault stop events wh).project
        Refetched.write =
      ingestRadarrHistoryChanges client stop.isSet inst tag events wh :=
  ingestHistoryChanges_of_no_fault hnone (ingestMovieChunk inst tag) (fun _ _ => rfl) events wh

/-- The scope refresh writes what its list call brought. -/
theorem scopeSeries_write (client : SonarrClient) (inst : String) (tag : WriteTag)
    (wh : Warehouse) :
    (scopeSeries client inst tag).elim wh (fun scope => scope.2 wh) =
      refreshScopeSeries client inst tag wh := by
  unfold scopeSeries refreshScopeSeries
  by_cases hon : client.incrementalScopeRefresh = true
  · rw [if_pos hon, if_pos hon]
    rcases client.listSeries with e | (_ | ⟨row, rows⟩) <;> rfl
  · rw [if_neg hon, if_neg hon]
    rfl

theorem scopeMovies_write (client : RadarrClient) (inst : String) (tag : WriteTag)
    (wh : Warehouse) :
    (scopeMovies client inst tag).elim wh (fun scope => scope.2 wh) =
      refreshScopeMovies client inst tag wh := by
  unfold scopeMovies refreshScopeMovies
  by_cases hon : client.incrementalScopeRefresh = true
  · rw [if_pos hon, if_pos hon]
    rcases client.listMovies with e | (_ | ⟨row, rows⟩) <;> rfl
  · rw [if_neg hon, if_neg hon]
    rfl

/-! ## What a run leaves -/

/-- A settled chunk was fetched. -/
theorem settled_ingestHistoryChanges {events : List HistoryEvent} {wh : Warehouse} :
    ∀ chunk ∈ (ingestHistoryChanges src fault stop events wh).state.settled,
      src.fetch chunk.1 = .ok chunk.2 := by
  let inv : Refetched β → Prop := fun s => ∀ chunk ∈ s.settled, src.fetch chunk.1 = .ok chunk.2
  refine tornLoop_invariant inv ?_ _ 0 _ (fun chunk hchunk => nomatch hchunk)
  intro n ids s hs
  unfold refetchChunk
  cases hfetch : src.fetch ids with
  | error e => exact hs
  | ok answer =>
      cases hwrite : fault (.write n) with
      | some e => exact hs
      | none =>
          cases hreconcile : fault (.reconcile n) with
          | some e => exact hs
          | none =>
              intro chunk hchunk
              rcases List.mem_append.mp hchunk with hold | hnew
              · exact hs chunk hold
              · rw [List.mem_singleton] at hnew
                rw [hnew]
                exact hfetch

/-- An ingest that was neither stopped nor broken off has settled every chunk,
in order. -/
theorem ingestHistoryChanges_completed {events : List HistoryEvent} {wh : Warehouse}
    (hstopped : (ingestHistoryChanges src fault stop events wh).stopped = false)
    (herror : (ingestHistoryChanges src fault stop events wh).error = none) :
    (ingestHistoryChanges src fault stop events wh).state.settled.map Prod.fst =
      slices src.chunkSize (changedIds src.key events) := by
  have hlog := tornLoop_log (fun s : Refetched β => s.settled.map Prod.fst) ?_ _ 0
    (⟨⟨wh, (), 0⟩, []⟩ : Refetched β) hstopped herror
  · exact hlog
  · intro n ids s s' hbody
    unfold refetchChunk at hbody
    split at hbody
    · simp at hbody
    · split at hbody
      · simp at hbody
      · simp only at hbody
        split at hbody
        · simp at hbody
        · obtain ⟨rfl, -⟩ := Prod.mk.inj hbody
          simp

/-- An ingest that nothing broke off has committed what it settled. -/
theorem ingestHistoryChanges_write {events : List HistoryEvent} {wh : Warehouse}
    (herror : (ingestHistoryChanges src fault stop events wh).error = none) :
    (ingestHistoryChanges src fault stop events wh).state.write =
      settle src (ingestHistoryChanges src fault stop events wh).state.settled ⟨wh, (), 0⟩ := by
  refine tornLoop_invariant_of_error_none
    (fun s : Refetched β => s.write = settle src s.settled ⟨wh, (), 0⟩) ?_ _ 0 _ rfl herror
  intro n ids s s' hs hbody
  unfold refetchChunk at hbody
  split at hbody
  · simp at hbody
  · next answer _ =>
      split at hbody
      · simp at hbody
      · simp only at hbody
        split at hbody
        · simp at hbody
        · obtain ⟨rfl, -⟩ := Prod.mk.inj hbody
          simp only [settle, List.foldl_append, List.foldl_cons, List.foldl_nil]
          rw [hs, settle]

/-- A run that finds no stop request at its last check was not stopped in the
ingest either. -/
theorem ingestHistoryChanges_not_stopped {events : List HistoryEvent} {wh : Warehouse}
    (hgo : stop.isSet (ingestHistoryChanges src fault stop events wh).checks = false) :
    (ingestHistoryChanges src fault stop events wh).stopped = false := by
  by_contra hstopped
  rw [Bool.not_eq_false] at hstopped
  obtain ⟨m, hchecks, hset⟩ := tornLoop_stopped _ 0 _ hstopped
  have hagain := stop.stays m hset
  unfold ingestHistoryChanges at hgo
  rw [hchecks, hagain] at hgo
  cases hgo

/-- The ingest part of a run that could write the watermark row. -/
theorem ingestOrEstablish_completed {watermark : Watermark T} {scopeRows : ℕ}
    {events : List HistoryEvent} {wh : Warehouse}
    (herror : (ingestOrEstablish src fault stop watermark scopeRows events wh).error = none)
    (hgo : stop.isSet (ingestOrEstablish src fault stop watermark scopeRows events wh).checks =
      false) :
    (watermark.time = none ∧
        (ingestOrEstablish src fault stop watermark scopeRows events wh).state.settled = []) ∨
      (ingestOrEstablish src fault stop watermark scopeRows events wh).state.settled.map Prod.fst =
        slices src.chunkSize (changedIds src.key events) := by
  unfold ingestOrEstablish at herror hgo ⊢
  split at herror
  · next hskip =>
      rw [if_pos hskip]
      rcases hskip with hnone | hempty
      · exact Or.inl ⟨Option.isNone_iff_eq_none.mp hnone, rfl⟩
      · refine Or.inr ?_
        rw [hempty]
        simp [changedIds, slices]
  · next hrun =>
      rw [if_neg hrun] at hgo ⊢
      exact Or.inr (ingestHistoryChanges_completed (ingestHistoryChanges_not_stopped hgo) herror)

/-- It has committed what it settled. -/
theorem ingestOrEstablish_wh {watermark : Watermark T} {scopeRows : ℕ}
    {events : List HistoryEvent} {wh : Warehouse}
    (herror : (ingestOrEstablish src fault stop watermark scopeRows events wh).error = none) :
    (ingestOrEstablish src fault stop watermark scopeRows events wh).state.write.wh =
      (settle src (ingestOrEstablish src fault stop watermark scopeRows events wh).state.settled
        ⟨wh, (), 0⟩).wh := by
  unfold ingestOrEstablish at herror ⊢
  split at herror
  · next hskip =>
      rw [if_pos hskip]
      rfl
  · next hrun =>
      rw [if_neg hrun]
      rw [ingestHistoryChanges_write herror]

theorem settled_ingestOrEstablish {watermark : Watermark T} {scopeRows : ℕ}
    {events : List HistoryEvent} {wh : Warehouse} :
    ∀ chunk ∈ (ingestOrEstablish src fault stop watermark scopeRows events wh).state.settled,
      src.fetch chunk.1 = .ok chunk.2 := by
  unfold ingestOrEstablish
  split
  · exact fun chunk hchunk => nomatch hchunk
  · exact settled_ingestHistoryChanges

variable (src fault stop)

/-- The run leaves the warehouse as the ingest did; and either it leaves the
watermark row alone, or nothing had broken off the ingest. -/
theorem closeIncremental_spec (watermark : Watermark T) (supportsHistorySince : Bool)
    (time : Option (Datetime T)) (id : Option Int) (exit : LoopExit SyncError (Refetched β)) :
    let outcome := closeIncremental fault stop watermark supportsHistorySince time id exit
    outcome.settled = exit.state.settled ∧ outcome.wh = exit.state.write.wh ∧
      ((outcome.stored = false ∧ outcome.watermark = watermark) ∨
        (outcome.stored = true ∧ exit.error = none ∧ stop.isSet exit.checks = false ∧
          outcome.watermark = watermark.update (time.map Datetime.instant) id)) := by
  unfold closeIncremental
  cases herror : exit.error with
  | some e => exact ⟨rfl, rfl, Or.inl ⟨rfl, rfl⟩⟩
  | none =>
      cases hgo : stop.isSet exit.checks with
      | true => exact ⟨rfl, rfl, Or.inl ⟨rfl, rfl⟩⟩
      | false =>
          cases hstore : fault .store with
          | some e => exact ⟨rfl, rfl, Or.inl ⟨rfl, rfl⟩⟩
          | none => exact ⟨rfl, rfl, Or.inr ⟨rfl, rfl, rfl, rfl⟩⟩

variable [LinearOrder T]

/-- What a run that wrote the watermark row had done before: it had read the
events, settled the chunks of their ids, and committed these and no others. -/
structure StoredRun (src : IncrementalSource β γ) (history : HistoryClient T)
    (watermark : Watermark T) (wh : Warehouse) (outcome : IncrementalOutcome T β)
    (events : List HistoryEvent) (time : Option (Datetime T)) : Prop where
  read : (history.listHistorySince watermark.time).1 = .ok events
  latest : latestTime history events = .ok time
  written : outcome.watermark =
    watermark.update (time.map Datetime.instant) (latestId events)
  complete : (watermark.time = none ∧ outcome.settled = []) ∨
    outcome.settled.map Prod.fst = slices src.chunkSize (changedIds src.key events)
  fetched : ∀ chunk ∈ outcome.settled, src.fetch chunk.1 = .ok chunk.2
  committed : outcome.wh =
    (settle src outcome.settled ⟨src.scope.elim wh fun scope => scope.2 wh, (), 0⟩).wh

/-- **The watermark row is written last.**  A run that breaks off, or is
stopped, leaves it as it was. -/
theorem syncIncremental_spec (history : HistoryClient T) (watermark : Watermark T)
    (wh : Warehouse) :
    let outcome := syncIncremental src fault stop history watermark wh
    (outcome.stored = false ∧ outcome.watermark = watermark) ∨
      (outcome.stored = true ∧
        ∃ events time, StoredRun src history watermark wh outcome events time) := by
  unfold syncIncremental
  cases hscope : fault .scope with
  | some e => exact Or.inl ⟨rfl, rfl⟩
  | none =>
      cases hhistory : fault .history with
      | some e => exact Or.inl ⟨rfl, rfl⟩
      | none =>
          cases hread : (history.listHistorySince watermark.time).1 with
          | error e =>
              simp only [hread]
              exact Or.inl (And.intro trivial trivial)
          | ok events =>
              simp only [hread]
              cases hlatest : latestTime history events with
              | error e =>
                  simp only
                  exact Or.inl (And.intro trivial trivial)
              | ok time =>
                  simp only
                  generalize hexit : ingestOrEstablish src fault stop watermark
                    (src.scope.elim 0 Prod.fst) events
                    (src.scope.elim wh fun scope => scope.2 wh) = exit
                  obtain ⟨hsettled, hwh, hunstored | ⟨hstored, herror, hgo, hwritten⟩⟩ :=
                    closeIncremental_spec fault stop watermark
                      (history.listHistorySince watermark.time).2 time (latestId events) exit
                  · exact Or.inl hunstored
                  · refine Or.inr ⟨hstored, events, time, hread, hlatest, hwritten, ?_, ?_, ?_⟩
                    · rw [hsettled]
                      subst hexit
                      exact ingestOrEstablish_completed herror hgo
                    · rw [hsettled]
                      subst hexit
                      exact settled_ingestOrEstablish
                    · rw [hsettled, hwh]
                      subst hexit
                      exact ingestOrEstablish_wh herror

variable {src fault stop}

/-- **A run that nothing breaks off writes the row.** -/
theorem syncIncremental_stored (hfault : ∀ point, fault point = none)
    (hgo : ∀ n, stop.isSet n = false) (hfetch : ∀ ids, ∃ answer, src.fetch ids = .ok answer)
    {history : HistoryClient T} {watermark : Watermark T} {wh : Warehouse}
    {events : List HistoryEvent} {time : Option (Datetime T)}
    (hread : (history.listHistorySince watermark.time).1 = .ok events)
    (hlatest : latestTime history events = .ok time) :
    let outcome := syncIncremental src fault stop history watermark wh
    outcome.stored = true ∧
      outcome.watermark = watermark.update (time.map Datetime.instant) (latestId events) := by
  have hingest : ∀ scopeRows wh,
      (ingestOrEstablish src fault stop watermark scopeRows events wh).error = none := by
    intro scopeRows wh
    unfold ingestOrEstablish
    split
    · rfl
    · refine tornLoop_error_none ?_ _ 0 _
      intro n ids s
      obtain ⟨answer, hanswer⟩ := hfetch ids
      simp [refetchChunk, hanswer, hfault]
  simp [syncIncremental, hfault, hread, hlatest, closeIncremental, hingest, hgo]

end Run

end Nebularr
