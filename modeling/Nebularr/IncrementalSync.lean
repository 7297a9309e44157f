import Mathlib.Data.Finset.Sort
import Nebularr.ArrClient
import Nebularr.ChunkLoop
import Nebularr.SyncWrites

/-!
# The incremental run's writes

What an incremental run does to the warehouse besides its watermark.  It
re-reads the list of series or movies for their scope fields, without ever
flagging a row, and it refetches the series or movies its history events
name, chunk by chunk.  A chunk is two transactions: the chunk write and a
reconcile step that flags the children which did not come back and the
families Arr answered 404 for.
-/

namespace Nebularr

/-- One record of an Arr's history. -/
structure HistoryEvent where
  id : Option Int := none
  date : Option String := none
  seriesId : Option Int := none
  movieId : Option Int := none
deriving DecidableEq, Repr

/-- `sorted({int(event[key]) for event in events if event.get(key)})`. -/
def changedIds (key : HistoryEvent → Option Int) (events : List HistoryEvent) : List Int :=
  ((events.filterMap key).filter (· ≠ 0)).toFinset.sort

theorem mem_changedIds_iff {key : HistoryEvent → Option Int} {events : List HistoryEvent}
    {id : Int} : id ∈ changedIds key events ↔ id ≠ 0 ∧ ∃ event ∈ events, key event = some id := by
  simp [changedIds, and_comm]

theorem changedIds_nodup (key : HistoryEvent → Option Int) (events : List HistoryEvent) :
    (changedIds key events).Nodup :=
  Finset.sort_nodup _ _

/-- An event that names one id changes that id. -/
theorem changedIds_singleton {key : HistoryEvent → Option Int} {event : HistoryEvent} {id : Int}
    (h : key event = some id) (hid : id ≠ 0) : changedIds key [event] = [id] := by
  simp [changedIds, h, hid]

/-! ## Scope refresh -/

/-- `_write_scope_rows` for Sonarr: parent rows only. -/
def writeScopeSeries (inst : String) (tag : WriteTag) (rows : List SeriesPayload)
    (wh : Warehouse) : Warehouse :=
  { wh with series := upsertSeriesAll wh.series inst tag (rows.filter fun row => row.id ≠ 0) }

/-- `_write_scope_rows` for Radarr. -/
def writeScopeMovies (inst : String) (tag : WriteTag) (rows : List MoviePayload)
    (wh : Warehouse) : Warehouse :=
  { wh with movie := upsertMovies wh.movie inst tag (rows.filter fun row => row.id ≠ 0) }

/-- `_refresh_scope_fields` for Sonarr: a failed list call is not a failed run. -/
def refreshScopeSeries (client : SonarrClient) (inst : String) (tag : WriteTag)
    (wh : Warehouse) : Warehouse :=
  if client.incrementalScopeRefresh then
    match client.listSeries with
    | .error _ => wh
    | .ok rows => writeScopeSeries inst tag rows wh
  else wh

/-- `_refresh_scope_fields` for Radarr. -/
def refreshScopeMovies (client : RadarrClient) (inst : String) (tag : WriteTag)
    (wh : Warehouse) : Warehouse :=
  if client.incrementalScopeRefresh then
    match client.listMovies with
    | .error _ => wh
    | .ok rows => writeScopeMovies inst tag rows wh
  else wh

/-! ## Sonarr ingest -/

/-- What one chunk of series ids came back as: the series Sonarr still has,
with their episode lists, and the ids it answered 404 for. -/
structure SeriesRefetch where
  present : List FetchedSeries
  deleted : List Int

/-- `present` of the source: the replies that are series with an id. -/
def presentSeries (chunkIds : List Int) (replies : List (GetReply SeriesPayload)) :
    List (Int × SeriesPayload) :=
  (chunkIds.zip replies).filterMap fun answer =>
    match answer.2 with
    | .row row => if row.id ≠ 0 then some (answer.1, row) else none
    | .missing => none
    | .blank => none

/-- `deleted_ids` of the source. -/
def missingIds {α : Type} [DecidableEq α] (chunkIds : List Int) (replies : List (GetReply α)) :
    List Int :=
  ((chunkIds.zip replies).filter fun answer => answer.2 = .missing).map Prod.fst

/-- The two gathers of a chunk. -/
def fetchSeriesChunk (client : SonarrClient) (chunkIds : List Int) :
    Except SyncError SeriesRefetch := do
  let replies ← chunkIds.mapM client.getSeries
  let present := presentSeries chunkIds replies
  let lists ← present.mapM fun answer => client.listEpisodes answer.1
  return ⟨(present.map Prod.snd).zip lists, missingIds chunkIds replies⟩

/-- `_reconcile_incremental_sonarr`. -/
def reconcileIncrementalSonarr (inst : String) (seen : SonarrSeen) (deletedSeries : List Int)
    (wh : Warehouse) : Warehouse :=
  let episodes := markMissingChildren wh.episode inst EpisodeCols.seriesSourceId seen.series.sort
    seen.episodes
  let files := markMissingChildren wh.episodeFile inst EpisodeFileCols.episodeSourceId
    seen.episodes.sort seen.files
  { wh with
    episodeFile := tombstoneEpisodeFilesForSeries files episodes inst deletedSeries
    series := markDeletedSourceIds wh.series inst deletedSeries
    episode := markMissingChildren episodes inst EpisodeCols.seriesSourceId deletedSeries ∅ }

/-- The two transactions of a chunk; the seen sets are the chunk's own. -/
def ingestSeriesChunk (inst : String) (tag : WriteTag) (chunk : SeriesRefetch)
    (s : WriteState Unit) : WriteState Unit :=
  let written := writeSonarrChunk inst tag chunk.present ⟨s.wh, {}, s.records⟩
  ⟨reconcileIncrementalSonarr inst written.seen chunk.deleted written.wh, (), written.records⟩

/-- `_ingest_sonarr_history_changes`. -/
def ingestSonarrHistoryChanges (client : SonarrClient) (stop : ℕ → Bool) (inst : String)
    (tag : WriteTag) (events : List HistoryEvent) (wh : Warehouse) :
    LoopExit SyncError (WriteState Unit) :=
  chunkLoop stop
    (fun chunkIds s => (fetchSeriesChunk client chunkIds).map (ingestSeriesChunk inst tag · s)) 0
    (slices (fetchChunkSize client.maxParallelRequests)
      (changedIds HistoryEvent.seriesId events)) ⟨wh, (), 0⟩

/-! ## What a chunk of series does to a row -/

/-- The series a chunk settles: present or gone. -/
def SeriesRefetch.ids (chunk : SeriesRefetch) : List Int :=
  chunkSeriesIds chunk.present ++ chunk.deleted

/-- The episodes a chunk fetched. -/
def SeriesRefetch.episodes (chunk : SeriesRefetch) : List EpisodePayload :=
  chunkEpisodes chunk.present

section OneChunk

variable (inst : String) (tag : WriteTag) (chunk : SeriesRefetch) (s : WriteState Unit)

@[simp] theorem seriesOf_ingestSeriesChunk (eid : Int) :
    (ingestSeriesChunk inst tag chunk s).wh.seriesOf inst eid =
      (s.wh.seriesOf inst eid).or (firstSeriesOf chunk.episodes eid) := by
  simp [Warehouse.seriesOf, ingestSeriesChunk, writeSonarrChunk_eq, reconcileIncrementalSonarr,
    SeriesRefetch.episodes]

@[simp] theorem episodeOf_ingestSeriesChunk (fid : Int) :
    (ingestSeriesChunk inst tag chunk s).wh.episodeOf inst fid =
      (s.wh.episodeOf inst fid).or (firstOwnerOf (episodeFilesOf chunk.episodes) fid) := by
  simp [Warehouse.episodeOf, ingestSeriesChunk, writeSonarrChunk_eq, reconcileIncrementalSonarr,
    SeriesRefetch.episodes]

theorem isLive_series_ingestSeriesChunk (sid : Int) :
    (ingestSeriesChunk inst tag chunk s).wh.series.isLive ⟨sid, inst⟩ = true ↔
      (sid ∈ chunkSeriesIds chunk.present ∨ s.wh.series.isLive ⟨sid, inst⟩ = true) ∧
        sid ∉ chunk.deleted := by
  have hids : chunkSeriesIds chunk.present =
      (chunk.present.map Prod.fst).map SeriesPayload.id := by
    simp [chunkSeriesIds]
  simp only [ingestSeriesChunk, writeSonarrChunk_eq, reconcileIncrementalSonarr,
    isLive_markDeletedSourceIds, isLive_upsertSeriesAll, ← hids]
  simp

/-- A fetched episode is live unless it is filed under a series that went;
another one stays live unless its series was settled. -/
theorem isLive_episode_ingestSeriesChunk (eid : Int) :
    (ingestSeriesChunk inst tag chunk s).wh.episode.isLive ⟨eid, inst⟩ = true ↔
      (eid ∈ episodeIds chunk.episodes ∨
        s.wh.episode.isLive ⟨eid, inst⟩ = true ∧
          ¬ FiledUnder ((ingestSeriesChunk inst tag chunk s).wh.seriesOf inst eid)
            (chunkSeriesIds chunk.present)) ∧
      ¬ FiledUnder ((ingestSeriesChunk inst tag chunk s).wh.seriesOf inst eid) chunk.deleted := by
  rw [seriesOf_ingestSeriesChunk]
  simp only [ingestSeriesChunk, writeSonarrChunk_eq, reconcileIncrementalSonarr,
    isLive_markMissingChildren, parentLink_markMissingChildren, isLive_upsertEpisodes,
    seriesLink_upsertEpisodes, SeriesRefetch.episodes, Warehouse.seriesOf]
  simp [any_mem_eq_false_iff]
  tauto

/-- Likewise for files: the parent is the episode, and a file also goes when
the series of its episode went. -/
theorem isLive_file_ingestSeriesChunk (fid : Int) :
    (ingestSeriesChunk inst tag chunk s).wh.episodeFile.isLive ⟨fid, inst⟩ = true ↔
      (fid ∈ episodeFileIds chunk.episodes ∨
        s.wh.episodeFile.isLive ⟨fid, inst⟩ = true ∧
          ¬ FiledUnder ((ingestSeriesChunk inst tag chunk s).wh.episodeOf inst fid)
            (episodeIds chunk.episodes)) ∧
      ∀ eid, (ingestSeriesChunk inst tag chunk s).wh.episodeOf inst fid = some eid →
        ¬ FiledUnder ((ingestSeriesChunk inst tag chunk s).wh.seriesOf inst eid)
          chunk.deleted := by
  simp only [seriesOf_ingestSeriesChunk, episodeOf_ingestSeriesChunk]
  simp only [ingestSeriesChunk, writeSonarrChunk_eq, reconcileIncrementalSonarr,
    isLive_tombstoneEpisodeFilesForSeries_iff, isLive_markMissingChildren,
    parentLink_markMissingChildren, isLive_upsertEpisodeFiles,
    episodeLink_upsertEpisodeFiles, seriesLink_upsertEpisodes, SeriesRefetch.episodes,
    Warehouse.seriesOf, Warehouse.episodeOf]
  simp [any_mem_eq_false_iff]
  tauto

/-- A chunk of series stays inside its instance. -/
theorem ingestSeriesChunk_frame :
    SonarrFrame inst s.wh (ingestSeriesChunk inst tag chunk s).wh := by
  have hwrite := writeSonarrChunk_frame inst tag chunk.present
    (⟨s.wh, {}, s.records⟩ : WriteState SonarrSeen)
  refine hwrite.trans ⟨?_, ?_, ?_, rfl, rfl⟩
  · exact sameElsewhere_markDeletedSourceIds _ _
  · exact (sameElsewhere_markMissingChildren _ _ _ _).trans
      (sameElsewhere_markMissingChildren _ _ _ _)
  · exact (sameElsewhere_markMissingChildren _ _ _ _).trans
      (sameElsewhere_tombstoneEpisodeFilesForSeries _ _ _)

end OneChunk

/-! ## Radarr ingest -/

/-- What one chunk of movie ids came back as. -/
structure MovieRefetch where
  present : List MoviePayload
  deleted : List Int

/-- `present` of the source: the replies that are movies with an id. -/
def presentMovies (replies : List (GetReply MoviePayload)) : List MoviePayload :=
  replies.filterMap fun reply =>
    match reply with
    | .row row => if row.id ≠ 0 then some row else none
    | .missing => none
    | .blank => none

/-- The gather of a chunk. -/
def fetchMovieChunk (client : RadarrClient) (chunkIds : List Int) :
    Except SyncError MovieRefetch := do
  let replies ← chunkIds.mapM client.getMovie
  return ⟨presentMovies replies, missingIds chunkIds replies⟩

/-- `_reconcile_incremental_radarr`. -/
def reconcileIncrementalRadarr (inst : String) (seen : RadarrSeen) (deletedMovies : List Int)
    (wh : Warehouse) : Warehouse :=
  let files := markMissingChildren wh.movieFile inst MovieFileCols.movieSourceId seen.movies.sort
    seen.files
  { wh with
    movie := markDeletedSourceIds wh.movie inst deletedMovies
    movieFile := markMissingChildren files inst MovieFileCols.movieSourceId deletedMovies ∅ }

/-- The two transactions of a chunk. -/
def ingestMovieChunk (inst : String) (tag : WriteTag) (chunk : MovieRefetch)
    (s : WriteState Unit) : WriteState Unit :=
  let written := writeRadarrChunk inst tag chunk.present ⟨s.wh, {}, s.records⟩
  ⟨reconcileIncrementalRadarr inst written.seen chunk.deleted written.wh, (), written.records⟩

/-- `_ingest_radarr_history_changes`. -/
def ingestRadarrHistoryChanges (client : RadarrClient) (stop : ℕ → Bool) (inst : String)
    (tag : WriteTag) (events : List HistoryEvent) (wh : Warehouse) :
    LoopExit SyncError (WriteState Unit) :=
  chunkLoop stop
    (fun chunkIds s => (fetchMovieChunk client chunkIds).map (ingestMovieChunk inst tag · s)) 0
    (slices (fetchChunkSize client.maxParallelRequests)
      (changedIds HistoryEvent.movieId events)) ⟨wh, (), 0⟩

/-! ## What a chunk of movies does to a row -/

section OneMovieChunk

variable (inst : String) (tag : WriteTag) (chunk : MovieRefetch) (s : WriteState Unit)

@[simp] theorem movieOf_ingestMovieChunk (fid : Int) :
    (ingestMovieChunk inst tag chunk s).wh.movieOf inst fid =
      (s.wh.movieOf inst fid).or (firstOwnerOf (movieFilesOf chunk.present) fid) := by
  simp [Warehouse.movieOf, ingestMovieChunk, writeRadarrChunk_eq, reconcileIncrementalRadarr]

theorem isLive_movie_ingestMovieChunk (mid : Int) :
    (ingestMovieChunk inst tag chunk s).wh.movie.isLive ⟨mid, inst⟩ = true ↔
      (mid ∈ chunk.present.map MoviePayload.id ∨ s.wh.movie.isLive ⟨mid, inst⟩ = true) ∧
        mid ∉ chunk.deleted := by
  simp only [ingestMovieChunk, writeRadarrChunk_eq, reconcileIncrementalRadarr,
    isLive_markDeletedSourceIds, isLive_upsertMovies]
  simp

/-- A movie file comes back, or goes with its movie. -/
theorem isLive_file_ingestMovieChunk (fid : Int) :
    (ingestMovieChunk inst tag chunk s).wh.movieFile.isLive ⟨fid, inst⟩ = true ↔
      (fid ∈ movieFileIds chunk.present ∨
        s.wh.movieFile.isLive ⟨fid, inst⟩ = true ∧
          ¬ FiledUnder ((ingestMovieChunk inst tag chunk s).wh.movieOf inst fid)
            (chunk.present.map MoviePayload.id)) ∧
      ¬ FiledUnder ((ingestMovieChunk inst tag chunk s).wh.movieOf inst fid) chunk.deleted := by
  rw [movieOf_ingestMovieChunk]
  simp only [ingestMovieChunk, writeRadarrChunk_eq, reconcileIncrementalRadarr,
    isLive_markMissingChildren, parentLink_markMissingChildren, isLive_upsertMovieFiles,
    movieLink_upsertMovieFiles, Warehouse.movieOf, Finset.mem_sort, Finset.empty_union,
    List.mem_toFinset]
  simp [any_mem_eq_false_iff, -List.mem_map]
  tauto

/-- A chunk of movies stays inside its instance. -/
theorem ingestMovieChunk_frame :
    RadarrFrame inst s.wh (ingestMovieChunk inst tag chunk s).wh := by
  have hwrite := writeRadarrChunk_frame inst tag chunk.present
    (⟨s.wh, {}, s.records⟩ : WriteState RadarrSeen)
  refine hwrite.trans ⟨?_, ?_, rfl, rfl, rfl⟩
  · exact sameElsewhere_markDeletedSourceIds _ _
  · exact (sameElsewhere_markMissingChildren _ _ _ _).trans
      (sameElsewhere_markMissingChildren _ _ _ _)

end OneMovieChunk

end Nebularr
