import Nebularr.ConsistentOperations
import Nebularr.Transitions

/-!
# The tombstone pass among other writers

A full run fetches its list first, its episode lists chunk by chunk, and flags
what it has not seen at the very end.  Webhook jobs, incremental runs and the
other full mode of the same instance commit in between: the write lock only
makes each transaction atomic.

Here every job is a program counter (`Stage`), a fetch reads what Arr holds at
that moment, and a commit is one of the transactions the sequential model is
built of.  Each full run carries a ghost, `touched`: the rows other writers
made live after it fetched the list they belong to.  The tombstone pass is
safe as long as such rows are rows it had fetched itself (`FetchedFirst`); a
row that is new in Arr since the fetch is flagged (`late_episode_is_flagged`).
-/

namespace Nebularr

/-! ## Jobs -/

/-- The rows a transaction makes live, as payloads. -/
structure Upserts where
  series : List SeriesPayload := []
  episodes : List EpisodePayload := []
  movies : List MoviePayload := []

/-- A full or reconcile run over Sonarr, after its list fetch.  `touched` is
ghost. -/
structure SonarrFullRun where
  fetchedCount : Nat
  todo : List (List SeriesPayload)
  pending : Option (List FetchedSeries) := none
  seen : SonarrSeen := {}
  touched : SonarrSeen := {}

/-- A full or reconcile run over Radarr, after its list fetch. -/
structure RadarrFullRun where
  fetchedCount : Nat
  todo : List (List MoviePayload)
  seen : RadarrSeen := {}
  touched : RadarrSeen := {}

/-- Where a job stands: what it holds and which transaction or fetch is next. -/
inductive Stage
  | sonarrFull (run : SonarrFullRun)
  | sonarrScope (rows : List SeriesPayload) (todo : List (List Int))
  | sonarrFetch (todo : List (List Int))
  | sonarrWrite (chunk : SeriesRefetch) (todo : List (List Int))
  | sonarrReconcile (seen : SonarrSeen) (deleted : List Int) (todo : List (List Int))
  | radarrFull (run : RadarrFullRun)
  | radarrScope (rows : List MoviePayload) (todo : List (List Int))
  | radarrFetch (todo : List (List Int))
  | radarrWrite (chunk : MovieRefetch) (todo : List (List Int))
  | radarrReconcile (seen : RadarrSeen) (deleted : List Int) (todo : List (List Int))
  | webhookEpisodes (episodes : List EpisodePayload)
  | webhookSeriesDelete (seriesIds : List Int)
  | webhookEpisodeDelete (episodeIds : List Int)
  | webhookMovies (movies : List MoviePayload) (deletedMovieIds : List Int)

/-- A job with the run id and mode it writes under. -/
structure Job where
  tag : WriteTag
  stage : Stage

/-- The warehouse, what the two applications hold, and the jobs under way. -/
structure World where
  wh : Warehouse
  sonarr : SonarrLibrary
  radarr : RadarrLibrary
  jobs : ℕ → Option Job

/-- What can be started on the instance.  An incremental run is given the
chunks of ids its history events name, and whether its scope refresh got a
list. -/
inductive Request
  | sonarrFull (size : ℕ+)
  | sonarrIncremental (scope : Bool) (chunks : List (List Int))
  | radarrFull
  | radarrIncremental (scope : Bool) (chunks : List (List Int))
  | webhook (job : WebhookJob)

/-- A step of the system. -/
inductive Action
  | arrChanges (sonarr : SonarrLibrary) (radarr : RadarrLibrary)
  | start (i : ℕ) (tag : WriteTag) (request : Request)
  | advance (i : ℕ)
  | abandon (i : ℕ)

/-! ## Steps -/

/-- The first fetch of a webhook job; `none` when it has nothing to write. -/
def webhookStage (w : World) (job : WebhookJob) : Option Stage :=
  let isDelete := containsWord "delete" job.eventType
  match job.source with
  | .sonarr =>
      let seriesId := job.payload.seriesId.filter (· ≠ 0)
      if isDelete then
        if containsWord "series" job.eventType then some (.webhookSeriesDelete seriesId.toList)
        else some (.webhookEpisodeDelete job.payload.deletedEpisodeIds)
      else seriesId.map fun sid => .webhookEpisodes (w.sonarr.episodes sid)
  | .radarr =>
      let movieId := job.payload.movieId.filter (· ≠ 0)
      if isDelete then some (.webhookMovies [] movieId.toList)
      else some (.webhookMovies (w.radarr.webhookMovies movieId) [])

/-- The stage a request starts in; full runs fetch their list here. -/
def openStage (w : World) : Request → Option Stage
  | .sonarrFull size =>
      some (.sonarrFull ⟨w.sonarr.series.length, slices size w.sonarr.series, none, {}, {}⟩)
  | .sonarrIncremental scope chunks =>
      some (if scope then .sonarrScope w.sonarr.series chunks else .sonarrFetch chunks)
  | .radarrFull =>
      some (.radarrFull ⟨w.radarr.movies.length, slices writeBatch w.radarr.movies, {}, {}⟩)
  | .radarrIncremental scope chunks =>
      some (if scope then .radarrScope w.radarr.movies chunks else .radarrFetch chunks)
  | .webhook job => webhookStage w job

/-- What the next transaction of a stage makes live. -/
def Stage.upserts : Stage → Upserts
  | sonarrFull run =>
      { series := (run.pending.getD []).map Prod.fst
        episodes := chunkEpisodes (run.pending.getD []) }
  | sonarrScope rows _ => { series := rows.filter fun row => row.id ≠ 0 }
  | sonarrFetch _ => {}
  | sonarrWrite chunk _ => { series := chunk.present.map Prod.fst, episodes := chunk.episodes }
  | sonarrReconcile _ _ _ => {}
  | radarrFull run => { movies := run.todo.headD [] }
  | radarrScope rows _ => { movies := rows.filter fun row => row.id ≠ 0 }
  | radarrFetch _ => {}
  | radarrWrite chunk _ => { movies := chunk.present }
  | radarrReconcile _ _ _ => {}
  | webhookEpisodes episodes => { episodes := episodes }
  | webhookSeriesDelete _ => {}
  | webhookEpisodeDelete _ => {}
  | webhookMovies movies _ => { movies := movies }

/-- The warehouse after a tombstone pass, which may refuse. -/
def afterTombstones (wh : Warehouse) (result : Except SyncError Warehouse) : Warehouse :=
  match result with
  | .ok marked => marked
  | .error _ => wh

/-- The next step of a Sonarr full run: write what is pending, else fetch the
next chunk, else flag what was not seen. -/
def SonarrFullRun.advance (inst : String) (tag : WriteTag) (w : World) (run : SonarrFullRun) :
    Warehouse × Option SonarrFullRun :=
  match run.pending, run.todo with
  | some chunk, _ =>
      let written := writeSonarrChunk inst tag chunk ⟨w.wh, run.seen, 0⟩
      (written.wh, some { run with pending := none, seen := written.seen })
  | none, chunk :: rest =>
      (w.wh, some { run
        with todo := rest, pending := some (fetchedLibrary chunk w.sonarr.episodes) })
  | none, [] =>
      (afterTombstones w.wh (markFullSyncTombstones run.fetchedCount
        (countNonDeletedRows w.wh.series inst) (sonarrTombstones inst run.seen) w.wh), none)

/-- The next step of a Radarr full run. -/
def RadarrFullRun.advance (inst : String) (tag : WriteTag) (w : World) (run : RadarrFullRun) :
    Warehouse × Option RadarrFullRun :=
  match run.todo with
  | batch :: rest =>
      let written := writeRadarrChunk inst tag batch ⟨w.wh, run.seen, 0⟩
      (written.wh, some { run with todo := rest, seen := written.seen })
  | [] =>
      (afterTombstones w.wh (markFullSyncTombstones run.fetchedCount
        (countNonDeletedRows w.wh.movie inst) (radarrTombstones inst run.seen) w.wh), none)

/-- The next step of a job: the warehouse after it and the stage it is then in. -/
def Stage.advance (inst : String) (tag : WriteTag) (w : World) : Stage → Warehouse × Option Stage
  | sonarrFull run =>
      ((run.advance inst tag w).1, (run.advance inst tag w).2.map sonarrFull)
  | sonarrScope rows todo => (writeScopeSeries inst tag rows w.wh, some (sonarrFetch todo))
  | sonarrFetch [] => (w.wh, none)
  | sonarrFetch (chunkIds :: rest) => (w.wh, some (sonarrWrite (w.sonarr.refetch chunkIds) rest))
  | sonarrWrite chunk todo =>
      let written := writeSonarrChunk inst tag chunk.present ⟨w.wh, {}, 0⟩
      (written.wh, some (sonarrReconcile written.seen chunk.deleted todo))
  | sonarrReconcile seen deleted todo =>
      (reconcileIncrementalSonarr inst seen deleted w.wh, some (sonarrFetch todo))
  | radarrFull run =>
      ((run.advance inst tag w).1, (run.advance inst tag w).2.map radarrFull)
  | radarrScope rows todo => (writeScopeMovies inst tag rows w.wh, some (radarrFetch todo))
  | radarrFetch [] => (w.wh, none)
  | radarrFetch (chunkIds :: rest) => (w.wh, some (radarrWrite (w.radarr.refetch chunkIds) rest))
  | radarrWrite chunk todo =>
      let written := writeRadarrChunk inst tag chunk.present ⟨w.wh, {}, 0⟩
      (written.wh, some (radarrReconcile written.seen chunk.deleted todo))
  | radarrReconcile seen deleted todo =>
      (reconcileIncrementalRadarr inst seen deleted w.wh, some (radarrFetch todo))
  | webhookEpisodes episodes => (writeWebhookEpisodes inst tag episodes w.wh, none)
  | webhookSeriesDelete seriesIds => (tombstoneWebhookSeriesDelete inst seriesIds w.wh, none)
  | webhookEpisodeDelete ids => (tombstoneWebhookEpisodes inst ids w.wh, none)
  | webhookMovies movies ids => (writeWebhookMovies inst tag movies ids w.wh, none)

/-! ## The ghost -/

/-- Inclusion of seen sets, table by table. -/
structure SonarrSeen.Within (a b : SonarrSeen) : Prop where
  series : a.series ⊆ b.series
  episodes : a.episodes ⊆ b.episodes
  files : a.files ⊆ b.files

/-- Inclusion of seen sets, table by table. -/
structure RadarrSeen.Within (a b : RadarrSeen) : Prop where
  movies : a.movies ⊆ b.movies
  files : a.files ⊆ b.files

/-- Union of seen sets, table by table. -/
def SonarrSeen.union (a b : SonarrSeen) : SonarrSeen :=
  ⟨a.series ∪ b.series, a.episodes ∪ b.episodes, a.files ∪ b.files⟩

/-- Union of seen sets, table by table. -/
def RadarrSeen.union (a b : RadarrSeen) : RadarrSeen := ⟨a.movies ∪ b.movies, a.files ∪ b.files⟩

namespace SonarrFullRun

variable (run : SonarrFullRun)

/-- The rows among the upserts whose list the run has fetched already: every
series, and the episodes and files of a series whose chunk is not to come. -/
def pastFetch (u : Upserts) : SonarrSeen :=
  let fetched := u.episodes.filter fun e =>
    decide (e.seriesId ∉ run.todo.flatten.map SeriesPayload.id)
  ⟨(u.series.map SeriesPayload.id).toFinset, (episodeIds fetched).toFinset,
    (episodeFileIds fetched).toFinset⟩

/-- The rows the run has fetched so far. -/
def fetched : SonarrSeen :=
  ⟨run.seen.series ∪ (chunkSeriesIds (run.pending.getD [])).toFinset ∪
      (run.todo.flatten.map SeriesPayload.id).toFinset,
    run.seen.episodes ∪ (episodeIds (chunkEpisodes (run.pending.getD []))).toFinset,
    run.seen.files ∪ (episodeFileIds (chunkEpisodes (run.pending.getD []))).toFinset⟩

/-- Another writer commits. -/
def touch (u : Upserts) : SonarrFullRun :=
  { run with touched := run.touched.union (run.pastFetch u) }

end SonarrFullRun

namespace RadarrFullRun

variable (run : RadarrFullRun)

/-- A Radarr run fetches everything at its start, so every upsert is late. -/
def pastFetch (u : Upserts) : RadarrSeen :=
  ⟨(u.movies.map MoviePayload.id).toFinset, (movieFileIds u.movies).toFinset⟩

/-- The rows the run has fetched. -/
def fetched : RadarrSeen :=
  ⟨run.seen.movies ∪ (run.todo.flatten.map MoviePayload.id).toFinset,
    run.seen.files ∪ (movieFileIds run.todo.flatten).toFinset⟩

/-- Another writer commits. -/
def touch (u : Upserts) : RadarrFullRun :=
  { run with touched := run.touched.union (pastFetch u) }

end RadarrFullRun

/-- What a commit of another job leaves of a job. -/
def Job.touch (u : Upserts) (job : Job) : Job :=
  match job.stage with
  | .sonarrFull run => { job with stage := .sonarrFull (run.touch u) }
  | .radarrFull run => { job with stage := .radarrFull (run.touch u) }
  | _ => job

/-- **The system.**  Every action of a job is atomic: a fetch, or a transaction
under the write lock of the instance. -/
def World.step (inst : String) (w : World) : Action → Option World
  | .arrChanges sonarr radarr => some { w with sonarr := sonarr, radarr := radarr }
  | .start i tag request =>
      match w.jobs i, openStage w request with
      | none, some stage =>
          some { w with jobs := Function.update w.jobs i (some ⟨tag, stage⟩) }
      | _, _ => none
  | .advance i =>
      match w.jobs i with
      | none => none
      | some job =>
          let next := job.stage.advance inst job.tag w
          some { w with
            wh := next.1
            jobs := Function.update (fun k => (w.jobs k).map (Job.touch job.stage.upserts)) i
              (next.2.map (Job.mk job.tag)) }
  | .abandon i =>
      match w.jobs i with
      | none => none
      | some _ => some { w with jobs := Function.update w.jobs i none }

/-! ## What a step does to the full runs -/

namespace SonarrSeen.Within

/-- What is within what is within. -/
theorem trans {a b c : SonarrSeen} (h : a.Within b) (h' : b.Within c) : a.Within c :=
  ⟨h.series.trans h'.series, h.episodes.trans h'.episodes, h.files.trans h'.files⟩

/-- Two parts are within together. -/
theorem union {a b c : SonarrSeen} (h : a.Within c) (h' : b.Within c) : (a.union b).Within c :=
  ⟨Finset.union_subset h.series h'.series, Finset.union_subset h.episodes h'.episodes,
    Finset.union_subset h.files h'.files⟩

/-- Nothing is within anything. -/
theorem empty (a : SonarrSeen) : SonarrSeen.Within {} a :=
  ⟨Finset.empty_subset _, Finset.empty_subset _, Finset.empty_subset _⟩

end SonarrSeen.Within

namespace RadarrSeen.Within

/-- What is within what is within. -/
theorem trans {a b c : RadarrSeen} (h : a.Within b) (h' : b.Within c) : a.Within c :=
  ⟨h.movies.trans h'.movies, h.files.trans h'.files⟩

/-- Two parts are within together. -/
theorem union {a b c : RadarrSeen} (h : a.Within c) (h' : b.Within c) : (a.union b).Within c :=
  ⟨Finset.union_subset h.movies h'.movies, Finset.union_subset h.files h'.files⟩

/-- Nothing is within anything. -/
theorem empty (a : RadarrSeen) : RadarrSeen.Within {} a :=
  ⟨Finset.empty_subset _, Finset.empty_subset _⟩

end RadarrSeen.Within

section Steps

variable {inst : String} {tag : WriteTag} {w w' : World}

/-- A run's own steps leave its ghost alone and lose nothing it has fetched. -/
theorem SonarrFullRun.advance_spec {run run' : SonarrFullRun}
    (h : (run.advance inst tag w).2 = some run') :
    run'.touched = run.touched ∧ run.fetched.Within run'.fetched := by
  obtain ⟨count, todo, pending, seen, touched⟩ := run
  cases pending with
  | some chunk =>
      simp only [advance, Option.some.injEq] at h
      subst h
      refine ⟨rfl, ?_⟩
      rw [fetched, fetched, writeSonarrChunk_eq]
      refine ⟨?_, ?_, ?_⟩ <;> simp [chunkEpisodes, chunkSeriesIds, episodeIds, episodeFileIds,
        episodeFilesOf]
  | none =>
      cases todo with
      | nil => cases h
      | cons chunk rest =>
          simp only [advance, Option.some.injEq] at h
          subst h
          refine ⟨rfl, ?_⟩
          rw [fetched, fetched]
          refine ⟨?_, ?_, ?_⟩
          · intro sid hsid
            rw [Option.getD_some, chunkSeriesIds_fetchedLibrary]
            simp [chunkSeriesIds] at hsid ⊢
            tauto
          · exact Finset.union_subset_union_right (by simp [chunkEpisodes, episodeIds])
          · exact Finset.union_subset_union_right
              (by simp [chunkEpisodes, episodeFileIds, episodeFilesOf])

/-- A step of the run forgets no touch and loses nothing that was fetched. -/
theorem RadarrFullRun.advance_spec {run run' : RadarrFullRun}
    (h : (run.advance inst tag w).2 = some run') :
    run'.touched = run.touched ∧ run.fetched.Within run'.fetched := by
  obtain ⟨count, todo, seen, touched⟩ := run
  cases todo with
  | nil => cases h
  | cons batch rest =>
      simp only [advance, Option.some.injEq] at h
      subst h
      refine ⟨rfl, ?_⟩
      rw [fetched, fetched, writeRadarrChunk_eq]
      refine ⟨?_, ?_⟩
      · intro mid hmid
        simp at hmid ⊢
        tauto
      · intro fid hfid
        simp [movieFileIds, movieFilesOf] at hfid ⊢
        tauto

/-- Only a full run is in a full run's next stage. -/
theorem Stage.advance_sonarrFull {stage : Stage} {run' : SonarrFullRun}
    (h : (stage.advance inst tag w).2 = some (.sonarrFull run')) :
    ∃ run, stage = .sonarrFull run ∧ (run.advance inst tag w).2 = some run' := by
  cases stage with
  | sonarrFull run =>
      obtain ⟨next, hnext, heq⟩ := Option.map_eq_some_iff.mp h
      obtain rfl := Stage.sonarrFull.inj heq
      exact ⟨run, rfl, hnext⟩
  | radarrFull run =>
      obtain ⟨next, _, heq⟩ := Option.map_eq_some_iff.mp h
      cases heq
  | sonarrFetch todo => cases todo <;> simp [advance] at h
  | radarrFetch todo => cases todo <;> simp [advance] at h
  | _ => simp [advance] at h

/-- Only a full run goes on as a full run. -/
theorem Stage.advance_radarrFull {stage : Stage} {run' : RadarrFullRun}
    (h : (stage.advance inst tag w).2 = some (.radarrFull run')) :
    ∃ run, stage = .radarrFull run ∧ (run.advance inst tag w).2 = some run' := by
  cases stage with
  | radarrFull run =>
      obtain ⟨next, hnext, heq⟩ := Option.map_eq_some_iff.mp h
      obtain rfl := Stage.radarrFull.inj heq
      exact ⟨run, rfl, hnext⟩
  | sonarrFull run =>
      obtain ⟨next, _, heq⟩ := Option.map_eq_some_iff.mp h
      cases heq
  | sonarrFetch todo => cases todo <;> simp [advance] at h
  | radarrFetch todo => cases todo <;> simp [advance] at h
  | _ => simp [advance] at h

/-- Another job's commit only adds to a full run's ghost. -/
theorem Job.touch_sonarrFull {u : Upserts} {job : Job} {run' : SonarrFullRun}
    (h : job.touch u = ⟨tag, .sonarrFull run'⟩) :
    ∃ run, job = ⟨tag, .sonarrFull run⟩ ∧ run' = run.touch u := by
  obtain ⟨tag', stage⟩ := job
  cases stage with
  | sonarrFull run =>
      obtain ⟨rfl, hstage⟩ := Job.mk.inj h
      exact ⟨run, rfl, (Stage.sonarrFull.inj hstage).symm⟩
  | _ => cases h

/-- A full run that is touched is that run, with the touch. -/
theorem Job.touch_radarrFull {u : Upserts} {job : Job} {run' : RadarrFullRun}
    (h : job.touch u = ⟨tag, .radarrFull run'⟩) :
    ∃ run, job = ⟨tag, .radarrFull run⟩ ∧ run' = run.touch u := by
  obtain ⟨tag', stage⟩ := job
  cases stage with
  | radarrFull run =>
      obtain ⟨rfl, hstage⟩ := Job.mk.inj h
      exact ⟨run, rfl, (Stage.radarrFull.inj hstage).symm⟩
  | _ => cases h

/-- No webhook becomes a full run. -/
theorem webhookStage_not_full {job : WebhookJob} :
    (∀ run, webhookStage w job ≠ some (.sonarrFull run)) ∧
      ∀ run, webhookStage w job ≠ some (.radarrFull run) := by
  unfold webhookStage
  cases job.source with
  | sonarr =>
      by_cases hdelete : containsWord "delete" job.eventType = true
      · by_cases hseries : containsWord "series" job.eventType = true <;> simp [hdelete, hseries]
      · simp [hdelete]
  | radarr => by_cases hdelete : containsWord "delete" job.eventType = true <;> simp [hdelete]

/-- A run that has just fetched its list has an empty ghost. -/
theorem openStage_sonarrFull {request : Request} {run : SonarrFullRun}
    (h : openStage w request = some (.sonarrFull run)) : run.touched = {} := by
  cases request with
  | sonarrFull size =>
      simp only [openStage, Option.some.injEq, Stage.sonarrFull.injEq] at h
      rw [← h]
  | sonarrIncremental scope chunks => cases scope <;> simp [openStage] at h
  | radarrFull => simp [openStage] at h
  | radarrIncremental scope chunks => cases scope <;> simp [openStage] at h
  | webhook job => exact absurd h (webhookStage_not_full.1 run)

/-- A full run opens with nothing touched. -/
theorem openStage_radarrFull {request : Request} {run : RadarrFullRun}
    (h : openStage w request = some (.radarrFull run)) : run.touched = {} := by
  cases request with
  | radarrFull =>
      simp only [openStage, Option.some.injEq, Stage.radarrFull.injEq] at h
      rw [← h]
  | sonarrFull size => simp [openStage] at h
  | sonarrIncremental scope chunks => cases scope <;> simp [openStage] at h
  | radarrIncremental scope chunks => cases scope <;> simp [openStage] at h
  | webhook job => exact absurd h (webhookStage_not_full.2 run)

/-- **What a step can do to the jobs**: leave one as it was, start it, advance
it, or touch it with another job's commit. -/
theorem World.step_jobs {a : Action} (h : w.step inst a = some w') {k : ℕ} {job' : Job}
    (hjob : w'.jobs k = some job') :
    w.jobs k = some job' ∨
      (∃ request stage, openStage w request = some stage ∧ job' = ⟨job'.tag, stage⟩) ∨
      (∃ job, a = .advance k ∧ w.jobs k = some job ∧ job'.tag = job.tag ∧
        (job.stage.advance inst job.tag w).2 = some job'.stage) ∨
      ∃ i other job, a = .advance i ∧ k ≠ i ∧ w.jobs i = some other ∧ w.jobs k = some job ∧
        job' = job.touch other.stage.upserts := by
  cases a with
  | arrChanges sonarr radarr =>
      obtain rfl := Option.some.inj h
      exact Or.inl hjob
  | start i tag request =>
      simp only [step] at h
      split at h
      · next stage _ hopen =>
          obtain rfl := Option.some.inj h
          change Function.update w.jobs i (some ⟨tag, stage⟩) k = some job' at hjob
          by_cases hk : k = i
          · subst hk
            rw [Function.update_self] at hjob
            obtain rfl := Option.some.inj hjob
            exact Or.inr (Or.inl ⟨request, stage, hopen, rfl⟩)
          · rw [Function.update_of_ne hk] at hjob
            exact Or.inl hjob
      · cases h
  | advance i =>
      simp only [step] at h
      split at h
      · cases h
      · next other hother =>
          obtain rfl := Option.some.inj h
          change Function.update (fun k => (w.jobs k).map (Job.touch other.stage.upserts)) i
            ((other.stage.advance inst other.tag w).2.map (Job.mk other.tag)) k = some job' at hjob
          by_cases hk : k = i
          · subst hk
            rw [Function.update_self] at hjob
            obtain ⟨stage, hstage, rfl⟩ := Option.map_eq_some_iff.mp hjob
            exact Or.inr (Or.inr (Or.inl ⟨other, rfl, hother, rfl, hstage⟩))
          · rw [Function.update_of_ne hk] at hjob
            obtain ⟨job, hbefore, rfl⟩ := Option.map_eq_some_iff.mp hjob
            exact Or.inr (Or.inr (Or.inr ⟨i, other, job, rfl, hk, hother, hbefore, rfl⟩))
  | abandon i =>
      simp only [step] at h
      split at h
      · cases h
      · obtain rfl := Option.some.inj h
        change Function.update w.jobs i none k = some job' at hjob
        by_cases hk : k = i
        · subst hk
          rw [Function.update_self] at hjob
          cases hjob
        · rw [Function.update_of_ne hk] at hjob
          exact Or.inl hjob

/-! ## Late rows are rows the run has fetched -/

/-- Every row made live behind the back of a full run is one it has fetched. -/
structure TouchedFetched (w : World) : Prop where
  sonarr : ∀ k tag run, w.jobs k = some ⟨tag, .sonarrFull run⟩ → run.touched.Within run.fetched
  radarr : ∀ k tag run, w.jobs k = some ⟨tag, .radarrFull run⟩ → run.touched.Within run.fetched

/-- The condition on a step: whatever a job commits, each full run under way
has fetched those of the rows whose list it has fetched. -/
def FetchedFirst (w : World) : Action → Prop
  | .advance i => ∀ job, w.jobs i = some job → ∀ k, k ≠ i →
      (∀ tag run, w.jobs k = some ⟨tag, .sonarrFull run⟩ →
        (run.pastFetch job.stage.upserts).Within run.fetched) ∧
      ∀ tag run, w.jobs k = some ⟨tag, .radarrFull run⟩ →
        (RadarrFullRun.pastFetch job.stage.upserts).Within run.fetched
  | _ => True

/-- **One step** keeps what was touched among what is fetched. -/
theorem touchedFetched_step {a : Action} (hinv : TouchedFetched w) (hfirst : FetchedFirst w a)
    (h : w.step inst a = some w') : TouchedFetched w' := by
  constructor
  · intro k tag run' hjob
    rcases World.step_jobs h hjob with hsame | ⟨request, stage, hopen, hnew⟩ |
      ⟨job, rfl, hbefore, htag, hnext⟩ | ⟨i, other, job, rfl, hne, hother, hbefore, htouch⟩
    · exact hinv.sonarr k tag run' hsame
    · obtain ⟨-, rfl⟩ := Job.mk.inj hnew
      rw [openStage_sonarrFull hopen]
      exact .empty _
    · obtain ⟨tag', stage⟩ := job
      obtain ⟨run, rfl, hrun⟩ := Stage.advance_sonarrFull hnext
      obtain ⟨htouched, hfetched⟩ := SonarrFullRun.advance_spec hrun
      rw [htouched]
      exact (hinv.sonarr k tag' run hbefore).trans hfetched
    · obtain ⟨run, rfl, rfl⟩ := Job.touch_sonarrFull htouch.symm
      have hlate := (hfirst other hother k hne).1 tag run hbefore
      exact (hinv.sonarr k tag run hbefore).union hlate
  · intro k tag run' hjob
    rcases World.step_jobs h hjob with hsame | ⟨request, stage, hopen, hnew⟩ |
      ⟨job, rfl, hbefore, htag, hnext⟩ | ⟨i, other, job, rfl, hne, hother, hbefore, htouch⟩
    · exact hinv.radarr k tag run' hsame
    · obtain ⟨-, rfl⟩ := Job.mk.inj hnew
      rw [openStage_radarrFull hopen]
      exact .empty _
    · obtain ⟨tag', stage⟩ := job
      obtain ⟨run, rfl, hrun⟩ := Stage.advance_radarrFull hnext
      obtain ⟨htouched, hfetched⟩ := RadarrFullRun.advance_spec hrun
      rw [htouched]
      exact (hinv.radarr k tag' run hbefore).trans hfetched
    · obtain ⟨run, rfl, rfl⟩ := Job.touch_radarrFull htouch.symm
      have hlate := (hfirst other hother k hne).2 tag run hbefore
      exact (hinv.radarr k tag run hbefore).union hlate

/-! ## The step of a full run -/

/-- The touched rows Sonarr still has stay live. -/
structure KeepsSonarr (inst : String) (lib : SonarrLibrary) (touched : SonarrSeen)
    (wh wh' : Warehouse) : Prop where
  series : ∀ sid ∈ touched.series, sid ∈ lib.seriesIds →
    wh.series.isLive ⟨sid, inst⟩ = true → wh'.series.isLive ⟨sid, inst⟩ = true
  episodes : ∀ eid ∈ touched.episodes, lib.HasEpisode eid →
    wh.episode.isLive ⟨eid, inst⟩ = true → wh'.episode.isLive ⟨eid, inst⟩ = true
  files : ∀ fid ∈ touched.files, lib.HasFile fid →
    wh.episodeFile.isLive ⟨fid, inst⟩ = true → wh'.episodeFile.isLive ⟨fid, inst⟩ = true

/-- The touched rows Radarr still has stay live. -/
structure KeepsRadarr (inst : String) (lib : RadarrLibrary) (touched : RadarrSeen)
    (wh wh' : Warehouse) : Prop where
  movies : ∀ mid ∈ touched.movies, mid ∈ lib.movies.map MoviePayload.id →
    wh.movie.isLive ⟨mid, inst⟩ = true → wh'.movie.isLive ⟨mid, inst⟩ = true
  files : ∀ fid ∈ touched.files, fid ∈ movieFileIds lib.movies →
    wh.movieFile.isLive ⟨fid, inst⟩ = true → wh'.movieFile.isLive ⟨fid, inst⟩ = true

/-- Where no row is marked, the touched rows are kept. -/
theorem KeepsSonarr.of_noneMarked {lib : SonarrLibrary} {touched : SonarrSeen}
    {wh wh' : Warehouse} (h : Warehouse.NoneMarked wh wh') :
    KeepsSonarr inst lib touched wh wh' :=
  ⟨fun _ _ _ => h.series.live _, fun _ _ _ => h.episode.live _, fun _ _ _ => h.episodeFile.live _⟩

/-- So it is in Radarr. -/
theorem KeepsRadarr.of_noneMarked {lib : RadarrLibrary} {touched : RadarrSeen}
    {wh wh' : Warehouse} (h : Warehouse.NoneMarked wh wh') :
    KeepsRadarr inst lib touched wh wh' :=
  ⟨fun _ _ _ => h.movie.live _, fun _ _ _ => h.movieFile.live _⟩

/-- No step of a Sonarr run flags a touched row it has fetched; only the last
flags anything, and by then all it has fetched is seen. -/
theorem SonarrFullRun.advance_keeps {run : SonarrFullRun} (lib : SonarrLibrary)
    (h : run.touched.Within run.fetched) :
    KeepsSonarr inst lib run.touched w.wh (run.advance inst tag w).1 := by
  obtain ⟨count, todo, pending, seen, touched⟩ := run
  cases pending with
  | some chunk => exact .of_noneMarked (writeSonarrChunk_noneMarked inst tag chunk ⟨w.wh, seen, 0⟩)
  | none =>
      cases todo with
      | cons chunk rest => exact .of_noneMarked (.refl _)
      | nil =>
          have hseen : touched.Within seen := by
            refine ⟨h.series.trans ?_, h.episodes.trans ?_, h.files.trans ?_⟩ <;>
              simp [fetched, chunkSeriesIds, chunkEpisodes, episodeIds, episodeFileIds,
                episodeFilesOf]
          simp only [advance, afterTombstones, markFullSyncTombstones]
          by_cases hempty : count = 0 ∧ countNonDeletedRows w.wh.series inst > 0
          · rw [if_pos hempty]
            exact .of_noneMarked (.refl _)
          · rw [if_neg hempty]
            refine ⟨?_, ?_, ?_⟩
            · intro sid hsid _ hlive
              simp [sonarrTombstones, hlive, hseen.series hsid]
            · intro eid heid _ hlive
              simp [sonarrTombstones, hlive, hseen.episodes heid]
            · intro fid hfid _ hlive
              simp [sonarrTombstones, hlive, hseen.files hfid]

/-- A full run keeps what was touched, as far as it was fetched. -/
theorem RadarrFullRun.advance_keeps {run : RadarrFullRun} (lib : RadarrLibrary)
    (h : run.touched.Within run.fetched) :
    KeepsRadarr inst lib run.touched w.wh (run.advance inst tag w).1 := by
  obtain ⟨count, todo, seen, touched⟩ := run
  cases todo with
  | cons batch rest =>
      exact .of_noneMarked (writeRadarrChunk_noneMarked inst tag batch ⟨w.wh, seen, 0⟩)
  | nil =>
      have hseen : touched.Within seen := by
        refine ⟨h.movies.trans ?_, h.files.trans ?_⟩ <;>
          simp [fetched, movieFileIds, movieFilesOf]
      simp only [advance, afterTombstones, markFullSyncTombstones]
      by_cases hempty : count = 0 ∧ countNonDeletedRows w.wh.movie inst > 0
      · rw [if_pos hempty]
        exact .of_noneMarked (.refl _)
      · rw [if_neg hempty]
        refine ⟨?_, ?_⟩
        · intro mid hmid _ hlive
          simp [radarrTombstones, hlive, hseen.movies hmid]
        · intro fid hfid _ hlive
          simp [radarrTombstones, hlive, hseen.files hfid]

end Steps

/-- Nothing is under way. -/
def World.idle (wh : Warehouse) (sonarr : SonarrLibrary) (radarr : RadarrLibrary) : World :=
  ⟨wh, sonarr, radarr, fun _ => none⟩

/-- Whatever full run takes the next step, the rows other writers made live
after its fetch stay live in it, as far as Arr still has them. -/
structure TouchedRowsKept (inst : String) (w : World) : Prop where
  sonarr : ∀ i tag run w', w.jobs i = some ⟨tag, .sonarrFull run⟩ →
    w.step inst (.advance i) = some w' → KeepsSonarr inst w.sonarr run.touched w.wh w'.wh
  radarr : ∀ i tag run w', w.jobs i = some ⟨tag, .radarrFull run⟩ →
    w.step inst (.advance i) = some w' → KeepsRadarr inst w.radarr run.touched w.wh w'.wh

/-- **Other writers' rows survive the tombstone pass** in every interleaving
whose commits only bring rows the full runs under way have fetched. -/
theorem late_rows_survive_tombstones {inst : String} {wh : Warehouse} {sonarr : SonarrLibrary}
    {radarr : RadarrLibrary} {w : World}
    (h : Reaches (World.step inst) FetchedFirst (.idle wh sonarr radarr) w) :
    TouchedRowsKept inst w := by
  have hinv : TouchedFetched w := by
    refine h.invariant ?_ ?_
    · exact ⟨fun _ _ _ hjob => (nomatch hjob), fun _ _ _ hjob => (nomatch hjob)⟩
    · intro s a s' hs hfirst hstep
      exact touchedFetched_step hs hfirst hstep
  refine ⟨?_, ?_⟩
  · intro i tag run w' hjob hstep
    simp only [World.step, hjob, Option.some.injEq] at hstep
    subst hstep
    exact SonarrFullRun.advance_keeps w.sonarr (hinv.sonarr i tag run hjob)
  · intro i tag run w' hjob hstep
    simp only [World.step, hjob, Option.some.injEq] at hstep
    subst hstep
    exact RadarrFullRun.advance_keeps w.radarr (hinv.radarr i tag run hjob)

/-! ## A run alone

With nobody else at work the steps of a full run add up to the sequential
run. -/

section Alone

variable {inst : String} {tag : WriteTag} {lib : SonarrLibrary} {radarr : RadarrLibrary}
  {i : ℕ}

/-- A world in which only job `i` may be under way. -/
def World.alone (wh : Warehouse) (sonarr : SonarrLibrary) (radarr : RadarrLibrary) (i : ℕ)
    (job : Option Job) : World :=
  ⟨wh, sonarr, radarr, Function.update (fun _ => none) i job⟩

/-- A job that is alone takes its own next step. -/
theorem World.step_alone (wh : Warehouse) (stage : Stage) :
    (World.alone wh lib radarr i (some ⟨tag, stage⟩)).step inst (.advance i) =
      some (.alone (stage.advance inst tag (.alone wh lib radarr i (some ⟨tag, stage⟩))).1 lib
        radarr i ((stage.advance inst tag
          (.alone wh lib radarr i (some ⟨tag, stage⟩))).2.map (Job.mk tag))) := by
  simp only [step, alone, Function.update_self, Option.some.injEq, World.mk.injEq, true_and]
  funext k
  by_cases hk : k = i
  · subst hk
    rw [Function.update_self, Function.update_self]
  · rw [Function.update_of_ne hk, Function.update_of_ne hk, Function.update_of_ne hk]
    rfl

/-- Fetch and write by turns, until all chunks are written. -/
theorem replay_sonarr_chunks (count : Nat) (todo : List (List SeriesPayload))
    (s : WriteState SonarrSeen) :
    replay (World.step inst) (List.replicate (2 * todo.length) (.advance i))
        (.alone s.wh lib radarr i (some ⟨tag, .sonarrFull ⟨count, todo, none, s.seen, {}⟩⟩)) =
      some (.alone (writeSonarrChunk inst tag (fetchedLibrary todo.flatten lib.episodes) s).wh lib
        radarr i (some ⟨tag, .sonarrFull ⟨count, [], none,
          (writeSonarrChunk inst tag (fetchedLibrary todo.flatten lib.episodes)
            s).seen, {}⟩⟩)) := by
  induction todo generalizing s with
  | nil => rfl
  | cons chunk rest ih =>
      have hflat : fetchedLibrary (chunk :: rest).flatten lib.episodes =
          fetchedLibrary chunk lib.episodes ++ fetchedLibrary rest.flatten lib.episodes := by
        simp [fetchedLibrary]
      have hsplit : ∀ chunk' : List FetchedSeries,
          writeSonarrChunk inst tag (fetchedLibrary chunk lib.episodes ++ chunk') s =
            writeSonarrChunk inst tag chunk'
              (writeSonarrChunk inst tag (fetchedLibrary chunk lib.episodes) s) := by
        intro chunk'
        exact List.foldl_append
      have hfetch : (World.alone s.wh lib radarr i (some ⟨tag, .sonarrFull
            ⟨count, chunk :: rest, none, s.seen, {}⟩⟩)).step inst (.advance i) =
          some (.alone s.wh lib radarr i (some ⟨tag, .sonarrFull
            ⟨count, rest, some (fetchedLibrary chunk lib.episodes), s.seen, {}⟩⟩)) :=
        World.step_alone s.wh _
      have hwrite : (World.alone s.wh lib radarr i (some ⟨tag, .sonarrFull
            ⟨count, rest, some (fetchedLibrary chunk lib.episodes), s.seen, {}⟩⟩)).step inst
            (.advance i) =
          some (.alone (writeSonarrChunk inst tag (fetchedLibrary chunk lib.episodes) s).wh lib
            radarr i (some ⟨tag, .sonarrFull ⟨count, rest, none,
              (writeSonarrChunk inst tag (fetchedLibrary chunk lib.episodes) s).seen, {}⟩⟩)) := by
        rw [World.step_alone]
        simp [Stage.advance, SonarrFullRun.advance, World.alone, writeSonarrChunk_eq]
      rw [hflat, hsplit, ← ih, List.length_cons, Nat.mul_succ, List.replicate_succ,
        List.replicate_succ, replay, hfetch, Option.bind_some, replay, hwrite, Option.bind_some]

/-- **A Sonarr full run alone is the sequential run.** -/
theorem sonarr_run_alone (wh : Warehouse) (size : ℕ+) (hne : lib.series ≠ []) :
    replay (World.step inst) (.start i tag (.sonarrFull size) ::
        List.replicate (2 * (slices size lib.series).length) (.advance i) ++ [.advance i])
        (.idle wh lib radarr) =
      some (.idle (syncSonarrFullBy size lib.client (fun _ => false) inst tag wh).wh lib
        radarr) := by
  have hopened : (World.idle wh lib radarr).step inst (.start i tag (.sonarrFull size)) =
      some (.alone wh lib radarr i (some ⟨tag, .sonarrFull
        ⟨lib.series.length, slices size lib.series, none, {}, {}⟩⟩)) := rfl
  rw [List.cons_append, replay, hopened, Option.bind_some, replay_append,
    replay_sonarr_chunks lib.series.length (slices size lib.series) ⟨wh, {}, 0⟩, Option.bind_some,
    flatten_slices, syncSonarrFullBy_completed (fun _ => rfl) rfl hne
      fun row _ => lib.client_answers.episodes row.id]
  simp only [replay, World.step_alone, Option.bind_some, Option.some.injEq]
  simp [Stage.advance, SonarrFullRun.advance, afterTombstones, markFullSyncTombstones, hne,
    World.alone, World.idle, writtenSonarr]

/-- The batches of a Radarr run, written one after the other. -/
theorem replay_radarr_batches {sonarr : SonarrLibrary} {library : RadarrLibrary} (count : Nat)
    (todo : List (List MoviePayload)) (s : WriteState RadarrSeen) :
    replay (World.step inst) (List.replicate todo.length (.advance i))
        (.alone s.wh sonarr library i (some ⟨tag, .radarrFull ⟨count, todo, s.seen, {}⟩⟩)) =
      some (.alone (writeRadarrChunk inst tag todo.flatten s).wh sonarr library i
        (some ⟨tag, .radarrFull ⟨count, [], (writeRadarrChunk inst tag todo.flatten s).seen,
          {}⟩⟩)) := by
  induction todo generalizing s with
  | nil => rfl
  | cons batch rest ih =>
      have hsplit : writeRadarrChunk inst tag (batch :: rest).flatten s =
          writeRadarrChunk inst tag rest.flatten (writeRadarrChunk inst tag batch s) :=
        List.foldl_append
      have hwrite : (World.alone s.wh sonarr library i (some ⟨tag, .radarrFull
            ⟨count, batch :: rest, s.seen, {}⟩⟩)).step inst (.advance i) =
          some (.alone (writeRadarrChunk inst tag batch s).wh sonarr library i
            (some ⟨tag, .radarrFull ⟨count, rest, (writeRadarrChunk inst tag batch s).seen,
              {}⟩⟩)) := by
        rw [World.step_alone]
        simp [Stage.advance, RadarrFullRun.advance, World.alone, writeRadarrChunk_eq]
      rw [hsplit, ← ih, List.length_cons, List.replicate_succ, replay, hwrite, Option.bind_some]

/-- **A Radarr full run alone is the sequential run.** -/
theorem radarr_run_alone {sonarr : SonarrLibrary} {library : RadarrLibrary} (wh : Warehouse)
    (hne : library.movies ≠ []) :
    replay (World.step inst) (.start i tag .radarrFull ::
        List.replicate (slices writeBatch library.movies).length (.advance i) ++ [.advance i])
        (.idle wh sonarr library) =
      some (.idle (syncRadarrFull library.client (fun _ => false) inst tag wh).wh sonarr
        library) := by
  have hopened : (World.idle wh sonarr library).step inst (.start i tag .radarrFull) =
      some (.alone wh sonarr library i (some ⟨tag, .radarrFull
        ⟨library.movies.length, slices writeBatch library.movies, {}, {}⟩⟩)) := rfl
  rw [List.cons_append, replay, hopened, Option.bind_some, replay_append,
    replay_radarr_batches library.movies.length (slices writeBatch library.movies) ⟨wh, {}, 0⟩,
    Option.bind_some, flatten_slices, syncRadarrFull,
    syncRadarrFullBy_completed (fun _ => rfl) rfl hne]
  simp only [replay, World.step_alone, Option.bind_some, Option.some.injEq]
  simp [Stage.advance, RadarrFullRun.advance, afterTombstones, markFullSyncTombstones, hne,
    World.alone, World.idle, writtenRadarr]

end Alone

/-! ### An episode that arrives late

A full run has fetched and written series 1, which has no episodes yet.
Episode 11 is imported and its webhook written; then the run flags it. -/

/-- Sonarr has an empty series 1. -/
def beforeImport : World := .idle Warehouse.empty emptiedLibrary emptyRadarr

/-- The full run, up to its tombstone pass. -/
def fullRunWritten : List Action :=
  [.start 0 ⟨1, "full", String.toLower⟩ (.sonarrFull 1), .advance 0, .advance 0]

/-- Meanwhile episode 11 is imported and its webhook processed. -/
def importProcessed : List Action :=
  [.arrChanges oneEpisodeLibrary emptyRadarr,
    .start 1 ⟨2, "webhook", String.toLower⟩ (.webhook downloadJob),
    .advance 1]

/-- The full run at that point. -/
def staleRun : SonarrFullRun where
  fetchedCount := 1
  todo := []
  seen := { series := {1} }
  touched := { episodes := {11}, files := {21} }

/-- An episode imported after the fetch is flagged by the tombstones. -/
theorem late_episode_is_flagged :
    ∃ w, Reachable (World.step "default") beforeImport w ∧ ¬ TouchedRowsKept "default" w := by
  have hran : (replay (World.step "default") (fullRunWritten ++ importProcessed)
      beforeImport).isSome = true := by decide
  obtain ⟨w, hw⟩ := Option.isSome_iff_exists.mp hran
  have hjob : (replay (World.step "default") (fullRunWritten ++ importProcessed)
      beforeImport).bind
        (fun w => w.jobs 0) = some ⟨⟨1, "full", String.toLower⟩, .sonarrFull staleRun⟩ := rfl
  have hlib : (replay (World.step "default") (fullRunWritten ++ importProcessed)
      beforeImport).map World.sonarr = some oneEpisodeLibrary := rfl
  have hlive : (replay (World.step "default") (fullRunWritten ++ importProcessed)
      beforeImport).map (fun w => w.wh.episode.isLive ⟨11, "default"⟩) = some true := by decide
  have hflagged : (replay (World.step "default") (fullRunWritten ++ importProcessed)
      beforeImport).bind (fun w => (w.step "default" (.advance 0)).map
        fun w' => w'.wh.episode.isLive ⟨11, "default"⟩) = some false := by decide
  rw [hw] at hjob hlib hlive hflagged
  refine ⟨w, reachable_of_replay hw, fun hkept => ?_⟩
  obtain ⟨w', hstep, hdead⟩ := Option.map_eq_some_iff.mp hflagged
  have hkeeps := (hkept.sonarr 0 _ staleRun w' hjob hstep).episodes 11 (by decide)
    (by
      rw [Option.some.inj hlib]
      exact ⟨1, mem_episodeIds_oneEpisode.mpr ⟨rfl, rfl⟩⟩)
    (Option.some.inj hlive)
  rw [hdead] at hkeeps
  cases hkeeps

/-- Had Sonarr listed the episode, the full run would have fetched it. -/
def freshRun : SonarrFullRun where
  fetchedCount := 1
  todo := []
  seen := { series := {1}, episodes := {11}, files := {21} }

/-- A job that is alone is overtaken by nothing. -/
theorem fetchedFirst_alone {wh : Warehouse} {sonarr : SonarrLibrary} {radarr : RadarrLibrary}
    {i : ℕ} {job : Option Job} : FetchedFirst (.alone wh sonarr radarr i job) (.advance i) := by
  intro _ _ k hk
  simp [World.alone, Function.update_of_ne hk]

/-- The same webhook then touches a row the run has fetched, and all is kept. -/
theorem fetched_episode_survives :
    ∃ w run, w.jobs 0 = some ⟨⟨1, "full", String.toLower⟩, .sonarrFull run⟩ ∧
      run.touched.episodes = {11} ∧
      TouchedRowsKept "default" w := by
  have hopened : Reaches (World.step "default") FetchedFirst
      (.idle Warehouse.empty oneEpisodeLibrary emptyRadarr)
      (.alone Warehouse.empty
        oneEpisodeLibrary emptyRadarr 0 (some ⟨⟨1, "full", String.toLower⟩, .sonarrFull
        ⟨1, [oneEpisodeLibrary.series], none, {}, {}⟩⟩)) :=
    Reaches.refl.tail (a := .start 0 ⟨1, "full", String.toLower⟩ (.sonarrFull 1)) trivial rfl
  have hfetched := hopened.tail fetchedFirst_alone (World.step_alone _ _)
  have hwritten : Reaches (World.step "default") FetchedFirst
      (.idle Warehouse.empty oneEpisodeLibrary emptyRadarr)
      (.alone (writtenSonarr "default" ⟨1, "full", String.toLower⟩ oneEpisodeLibrary.series
        oneEpisodeLibrary.episodes Warehouse.empty).wh oneEpisodeLibrary emptyRadarr 0
        (some ⟨⟨1, "full", String.toLower⟩, .sonarrFull freshRun⟩)) :=
    hfetched.tail fetchedFirst_alone (World.step_alone _ _)
  have hstarted := hwritten.tail
    (show FetchedFirst _ (.start 1 ⟨2, "webhook", String.toLower⟩ (.webhook downloadJob)) from
      trivial) rfl
  refine ⟨_, { freshRun with touched := { episodes := {11}, files := {21} } }, ?_, ?_,
    late_rows_survive_tombstones
    (hstarted.tail (a := .advance 1) ?_ rfl)⟩
  · rfl
  · rfl
  · intro job hjob k hk
    obtain rfl := Option.some.inj hjob
    by_cases hzero : k = 0
    · subst hzero
      refine ⟨fun tag run hrun => ?_, fun _ _ hrun => (nomatch hrun)⟩
      obtain ⟨-, hstage⟩ := Job.mk.inj (Option.some.inj hrun)
      obtain rfl := Stage.sonarrFull.inj hstage
      exact ⟨by decide, by decide, by decide⟩
    · simp [World.alone, Function.update_of_ne hk, Function.update_of_ne hzero]

end Nebularr
