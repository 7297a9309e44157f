import Mathlib.Data.Finset.Basic
import Mathlib.Data.Finset.Dedup
import Mathlib.Data.Finset.Lattice.Lemmas
import Nebularr.Warehouse

/-!
# Chunk writes

`_write_sonarr_chunk` and `_write_radarr_chunk`: one transaction that upserts
a batch of fetched items and adds their ids to the run's seen sets.  The full
sync, the incremental ingest and every interleaving of them write through
these two functions.

The source walks the payloads depth first and touches three tables on the
way.  Since the tables are independent, the walk is the same as one batch of
upserts per table (`writeSonarrChunk_eq`), and what it does to a row follows
from the batch lemmas.
-/

namespace Nebularr

/-! ## The two functions -/

/-- `seen_series`, `seen_episodes` and `seen_episode_files` of a Sonarr run. -/
structure SonarrSeen where
  series : Finset Int := ∅
  episodes : Finset Int := ∅
  files : Finset Int := ∅
deriving DecidableEq

/-- `seen_movies` and `seen_movie_files` of a Radarr run. -/
structure RadarrSeen where
  movies : Finset Int := ∅
  files : Finset Int := ∅
deriving DecidableEq

/-- What a run carries from chunk to chunk: the committed warehouse, its seen
sets and its record count. -/
structure WriteState (Seen : Type) where
  wh : Warehouse
  seen : Seen
  records : Nat

/-- A series payload with the episode list fetched for it. -/
abbrev FetchedSeries := SeriesPayload × List EpisodePayload

/-- The body of the inner loop of `_write_sonarr_chunk`. -/
def writeEpisode (inst : String) (tag : WriteTag) (s : WriteState SonarrSeen)
    (episode : EpisodePayload) : WriteState SonarrSeen :=
  let episodes := upsertEpisode s.wh.episode inst episode tag
  let seen := { s.seen with episodes := insert episode.id s.seen.episodes }
  match episode.carriedFile with
  | none => ⟨{ s.wh with episode := episodes }, seen, s.records + 1⟩
  | some (fid, file) =>
      ⟨{ s.wh with
          episode := episodes
          episodeFile := upsertEpisodeFile s.wh.episodeFile inst episode.id fid file tag },
        { seen with files := insert fid seen.files }, s.records + 1⟩

/-- The body of the outer loop of `_write_sonarr_chunk`. -/
def writeSeries (inst : String) (tag : WriteTag) (s : WriteState SonarrSeen)
    (item : FetchedSeries) : WriteState SonarrSeen :=
  item.2.foldl (writeEpisode inst tag)
    { s with
      wh := { s.wh with series := upsertSeries s.wh.series inst item.1 tag }
      seen := { s.seen with series := insert item.1.id s.seen.series } }

/-- `_write_sonarr_chunk`. -/
def writeSonarrChunk (inst : String) (tag : WriteTag) (chunk : List FetchedSeries)
    (s : WriteState SonarrSeen) : WriteState SonarrSeen :=
  chunk.foldl (writeSeries inst tag) s

/-- The body of the loop of `_write_radarr_chunk`. -/
def writeMovie (inst : String) (tag : WriteTag) (s : WriteState RadarrSeen)
    (movie : MoviePayload) : WriteState RadarrSeen :=
  let movies := upsertMovie s.wh.movie inst movie tag
  let seen := { s.seen with movies := insert movie.id s.seen.movies }
  match movie.carriedFile with
  | none => ⟨{ s.wh with movie := movies }, seen, s.records + 1⟩
  | some (fid, file) =>
      ⟨{ s.wh with
          movie := movies
          movieFile := upsertMovieFile s.wh.movieFile inst movie.id fid file tag },
        { seen with files := insert fid seen.files }, s.records + 1⟩

/-- `_write_radarr_chunk`. -/
def writeRadarrChunk (inst : String) (tag : WriteTag) (batch : List MoviePayload)
    (s : WriteState RadarrSeen) : WriteState RadarrSeen :=
  batch.foldl (writeMovie inst tag) s

/-! ## What a batch carries -/

/-- A file with its id and the item that carries it. -/
structure CarriedFile where
  ownerId : Int
  fileId : Int
  file : FilePayload
deriving DecidableEq, Repr

/-- The files carried by a list of episodes. -/
def episodeFilesOf (episodes : List EpisodePayload) : List CarriedFile :=
  episodes.filterMap fun e => e.carriedFile.map fun f => ⟨e.id, f.1, f.2⟩

/-- The files carried by a list of movies. -/
def movieFilesOf (movies : List MoviePayload) : List CarriedFile :=
  movies.filterMap fun m => m.carriedFile.map fun f => ⟨m.id, f.1, f.2⟩

/-- The ids of the episodes of a list. -/
def episodeIds (episodes : List EpisodePayload) : List Int := episodes.map EpisodePayload.id

/-- The ids of the files carried by a list of episodes. -/
def episodeFileIds (episodes : List EpisodePayload) : List Int :=
  (episodeFilesOf episodes).map CarriedFile.fileId

/-- The ids of the files carried by a list of movies. -/
def movieFileIds (movies : List MoviePayload) : List Int :=
  (movieFilesOf movies).map CarriedFile.fileId

/-- The episodes of a chunk, in the order they are written. -/
def chunkEpisodes (chunk : List FetchedSeries) : List EpisodePayload := chunk.flatMap Prod.snd

/-- The series ids of a chunk. -/
def chunkSeriesIds (chunk : List FetchedSeries) : List Int := chunk.map fun item => item.1.id

/-- The files of two lists of episodes are those of each. -/
theorem episodeFilesOf_append (l l' : List EpisodePayload) :
    episodeFilesOf (l ++ l') = episodeFilesOf l ++ episodeFilesOf l' :=
  List.filterMap_append

/-- A file is carried by a list exactly when one of its episodes carries it. -/
theorem mem_episodeFileIds_iff {episodes : List EpisodePayload} {fid : Int} :
    fid ∈ episodeFileIds episodes ↔ ∃ e ∈ episodes, ∃ file, e.carriedFile = some (fid, file) := by
  simp only [episodeFileIds, episodeFilesOf, List.mem_map, List.mem_filterMap,
    Option.map_eq_some_iff]
  constructor
  · intro h
    obtain ⟨c, ⟨e, he, ⟨fid', file⟩, hf, rfl⟩, rfl⟩ := h
    exact ⟨e, he, file, hf⟩
  · intro h
    obtain ⟨e, he, file, hf⟩ := h
    exact ⟨⟨e.id, fid, file⟩, ⟨e, he, (fid, file), hf, rfl⟩, rfl⟩

/-- A file is carried by a list exactly when one of its movies carries it. -/
theorem mem_movieFileIds_iff {movies : List MoviePayload} {fid : Int} :
    fid ∈ movieFileIds movies ↔ ∃ m ∈ movies, ∃ file, m.carriedFile = some (fid, file) := by
  simp only [movieFileIds, movieFilesOf, List.mem_map, List.mem_filterMap, Option.map_eq_some_iff]
  constructor
  · intro h
    obtain ⟨c, ⟨m, hm, ⟨fid', file⟩, hf, rfl⟩, rfl⟩ := h
    exact ⟨m, hm, file, hf⟩
  · intro h
    obtain ⟨m, hm, file, hf⟩ := h
    exact ⟨⟨m.id, fid, file⟩, ⟨m, hm, (fid, file), hf, rfl⟩, rfl⟩

/-! ## One batch per table -/

/-- `upsert_series` over a list. -/
def upsertSeriesAll (t : WarehouseTable SeriesCols) (inst : String) (tag : WriteTag)
    (rows : List SeriesPayload) : WarehouseTable SeriesCols :=
  rows.foldl (fun t row => upsertSeries t inst row tag) t

/-- `upsert_episode` over a list. -/
def upsertEpisodes (t : WarehouseTable EpisodeCols) (inst : String) (tag : WriteTag)
    (rows : List EpisodePayload) : WarehouseTable EpisodeCols :=
  rows.foldl (fun t row => upsertEpisode t inst row tag) t

/-- `upsert_episode_file` over a list. -/
def upsertEpisodeFiles (t : WarehouseTable EpisodeFileCols) (inst : String) (tag : WriteTag)
    (files : List CarriedFile) : WarehouseTable EpisodeFileCols :=
  files.foldl (fun t f => upsertEpisodeFile t inst f.ownerId f.fileId f.file tag) t

/-- `upsert_movie` over a list. -/
def upsertMovies (t : WarehouseTable MovieCols) (inst : String) (tag : WriteTag)
    (rows : List MoviePayload) : WarehouseTable MovieCols :=
  rows.foldl (fun t row => upsertMovie t inst row tag) t

/-- `upsert_movie_file` over a list. -/
def upsertMovieFiles (t : WarehouseTable MovieFileCols) (inst : String) (tag : WriteTag)
    (files : List CarriedFile) : WarehouseTable MovieFileCols :=
  files.foldl (fun t f => upsertMovieFile t inst f.ownerId f.fileId f.file tag) t

/-- The inner loop, table by table. -/
theorem foldl_writeEpisode (inst : String) (tag : WriteTag) (episodes : List EpisodePayload)
    (s : WriteState SonarrSeen) :
    episodes.foldl (writeEpisode inst tag) s =
      ⟨{ s.wh with
          episode := upsertEpisodes s.wh.episode inst tag episodes
          episodeFile := upsertEpisodeFiles s.wh.episodeFile inst tag (episodeFilesOf episodes) },
        ⟨s.seen.series, s.seen.episodes ∪ (episodeIds episodes).toFinset,
          s.seen.files ∪ (episodeFileIds episodes).toFinset⟩,
        s.records + episodes.length⟩ := by
  induction episodes generalizing s with
  | nil => simp [upsertEpisodes, upsertEpisodeFiles, episodeFilesOf, episodeIds, episodeFileIds]
  | cons e rest ih =>
      rw [List.foldl_cons, ih]
      cases hf : e.carriedFile with
      | none =>
          simp [writeEpisode, hf, upsertEpisodes, upsertEpisodeFiles, episodeFilesOf, episodeIds,
            episodeFileIds, Nat.add_comm, Nat.add_left_comm]
      | some f =>
          simp [writeEpisode, hf, upsertEpisodes, upsertEpisodeFiles, episodeFilesOf, episodeIds,
            episodeFileIds, Nat.add_comm, Nat.add_left_comm]

/-- **A chunk write is one batch of upserts per table**, and its ids are what
the seen sets gain. -/
theorem writeSonarrChunk_eq (inst : String) (tag : WriteTag) (chunk : List FetchedSeries)
    (s : WriteState SonarrSeen) :
    writeSonarrChunk inst tag chunk s =
      ⟨{ s.wh with
          series := upsertSeriesAll s.wh.series inst tag (chunk.map Prod.fst)
          episode := upsertEpisodes s.wh.episode inst tag (chunkEpisodes chunk)
          episodeFile :=
            upsertEpisodeFiles s.wh.episodeFile inst tag (episodeFilesOf (chunkEpisodes chunk)) },
        ⟨s.seen.series ∪ (chunkSeriesIds chunk).toFinset,
          s.seen.episodes ∪ (episodeIds (chunkEpisodes chunk)).toFinset,
          s.seen.files ∪ (episodeFileIds (chunkEpisodes chunk)).toFinset⟩,
        s.records + (chunkEpisodes chunk).length⟩ := by
  unfold writeSonarrChunk
  induction chunk generalizing s with
  | nil =>
      simp [upsertSeriesAll, upsertEpisodes, upsertEpisodeFiles, chunkEpisodes, chunkSeriesIds,
        episodeFilesOf, episodeIds, episodeFileIds]
  | cons item rest ih =>
      rw [List.foldl_cons, ih, writeSeries, foldl_writeEpisode]
      simp [upsertSeriesAll, upsertEpisodes, upsertEpisodeFiles, chunkEpisodes, chunkSeriesIds,
        episodeFilesOf_append, episodeIds, episodeFileIds, List.foldl_append, Finset.union_assoc,
        Nat.add_assoc]

/-- A movie batch is one batch of upserts per table. -/
theorem writeRadarrChunk_eq (inst : String) (tag : WriteTag) (batch : List MoviePayload)
    (s : WriteState RadarrSeen) :
    writeRadarrChunk inst tag batch s =
      ⟨{ s.wh with
          movie := upsertMovies s.wh.movie inst tag batch
          movieFile := upsertMovieFiles s.wh.movieFile inst tag (movieFilesOf batch) },
        ⟨s.seen.movies ∪ (batch.map MoviePayload.id).toFinset,
          s.seen.files ∪ (movieFileIds batch).toFinset⟩,
        s.records + batch.length⟩ := by
  unfold writeRadarrChunk
  induction batch generalizing s with
  | nil => simp [upsertMovies, upsertMovieFiles, movieFilesOf, movieFileIds]
  | cons m rest ih =>
      rw [List.foldl_cons, ih]
      cases hf : m.carriedFile with
      | none =>
          simp [writeMovie, hf, upsertMovies, upsertMovieFiles, movieFilesOf, movieFileIds,
            Nat.add_comm, Nat.add_left_comm]
      | some f =>
          simp [writeMovie, hf, upsertMovies, upsertMovieFiles, movieFilesOf, movieFileIds,
            Nat.add_comm, Nat.add_left_comm]

/-! ## What a batch does to a row

The five batches differ in their columns only.  A row of the instance is live
afterwards when it was before or the batch names it; it is filed where it was
before, and where the first item of the batch puts it if it is new. -/

section InstanceBatches

variable {α β : Type} (idOf : β → Int) (inst : String) (fresh : β → α) (merge : β → α → α)

/-- The keys of a batch are its ids, under the instance. -/
private theorem mem_instanceKeys_iff {items : List β} {k : RowKey} :
    k ∈ items.map (fun b => RowKey.mk (idOf b) inst) ↔
      k.instanceName = inst ∧ k.sourceId ∈ items.map idOf := by
  simp only [List.mem_map]
  constructor
  · intro h
    obtain ⟨b, hb, rfl⟩ := h
    exact ⟨rfl, b, hb, rfl⟩
  · intro h
    obtain ⟨rfl, b, hb, hid⟩ := h
    exact ⟨b, hb, by rw [hid]⟩

/-- A batch revives its own rows only. -/
private theorem isLive_instanceBatch (items : List β) (t : WarehouseTable α) (k : RowKey) :
    (t.upsertAllLive (fun b => RowKey.mk (idOf b) inst) fresh merge items).isLive k =
      (k.instanceName = inst && k.sourceId ∈ items.map idOf || t.isLive k) := by
  rw [KeyedTable.isLive_upsertAllLive]
  simp only [mem_instanceKeys_iff, Bool.decide_and]

/-- A row keeps its parent, and a new one gets that of the first item with its
id. -/
private theorem parentLink_instanceBatch (parent : α → Int)
    (hmerge : ∀ b a, parent (merge b a) = parent a) (items : List β) (t : WarehouseTable α)
    (id : Int) :
    parentLink parent
        (t.upsertAllLive (fun b => RowKey.mk (idOf b) inst) fresh merge items) ⟨id, inst⟩ =
      (parentLink parent t ⟨id, inst⟩).or
        ((items.find? fun b => idOf b = id).map fun b => parent (fresh b)) := by
  unfold parentLink
  rw [KeyedTable.proj_upsertAllLive _ _ _ parent hmerge]
  simp [RowKey.mk.injEq]

/-- A batch leaves the rows of other instances. -/
private theorem row_instanceBatch_of_ne (items : List β) (t : WarehouseTable α) {k : RowKey}
    (hk : k.instanceName ≠ inst) :
    (t.upsertAllLive (fun b => RowKey.mk (idOf b) inst) fresh merge items).row k = t.row k := by
  apply KeyedTable.row_upsertAllLive_of_notMem
  rw [mem_instanceKeys_iff]
  exact fun h => hk h.1

end InstanceBatches

/-- The series the first payload of a list files an episode under. -/
def firstSeriesOf (rows : List EpisodePayload) (eid : Int) : Option Int :=
  (rows.find? fun row => row.id = eid).map EpisodePayload.seriesId

/-- The item that carries a file first in a list. -/
def firstOwnerOf (files : List CarriedFile) (fid : Int) : Option Int :=
  (files.find? fun f => f.fileId = fid).map CarriedFile.ownerId

section BatchRows

variable (inst : String) (tag : WriteTag)

/-- A batch of series revives its own rows only. -/
@[simp] theorem isLive_upsertSeriesAll (t : WarehouseTable SeriesCols) (rows : List SeriesPayload)
    (k : RowKey) :
    (upsertSeriesAll t inst tag rows).isLive k =
      (k.instanceName = inst && k.sourceId ∈ rows.map SeriesPayload.id || t.isLive k) :=
  isLive_instanceBatch SeriesPayload.id inst _ _ rows t k

/-- A batch of episodes revives its own rows only. -/
@[simp] theorem isLive_upsertEpisodes (t : WarehouseTable EpisodeCols)
    (rows : List EpisodePayload) (k : RowKey) :
    (upsertEpisodes t inst tag rows).isLive k =
      (k.instanceName = inst && k.sourceId ∈ episodeIds rows || t.isLive k) :=
  isLive_instanceBatch EpisodePayload.id inst _ _ rows t k

/-- A batch of episodes' files revives its own rows only. -/
@[simp] theorem isLive_upsertEpisodeFiles (t : WarehouseTable EpisodeFileCols)
    (episodes : List EpisodePayload) (k : RowKey) :
    (upsertEpisodeFiles t inst tag (episodeFilesOf episodes)).isLive k =
      (k.instanceName = inst && k.sourceId ∈ episodeFileIds episodes || t.isLive k) :=
  isLive_instanceBatch CarriedFile.fileId inst _ _ (episodeFilesOf episodes) t k

/-- A batch of movies revives its own rows only. -/
@[simp] theorem isLive_upsertMovies (t : WarehouseTable MovieCols) (rows : List MoviePayload)
    (k : RowKey) :
    (upsertMovies t inst tag rows).isLive k =
      (k.instanceName = inst && k.sourceId ∈ rows.map MoviePayload.id || t.isLive k) :=
  isLive_instanceBatch MoviePayload.id inst _ _ rows t k

/-- A batch of movies' files revives its own rows only. -/
@[simp] theorem isLive_upsertMovieFiles (t : WarehouseTable MovieFileCols)
    (movies : List MoviePayload) (k : RowKey) :
    (upsertMovieFiles t inst tag (movieFilesOf movies)).isLive k =
      (k.instanceName = inst && k.sourceId ∈ movieFileIds movies || t.isLive k) :=
  isLive_instanceBatch CarriedFile.fileId inst _ _ (movieFilesOf movies) t k

/-- **An episode on file never changes series**; a new one is filed under the
series its first payload names. -/
@[simp] theorem seriesLink_upsertEpisodes (t : WarehouseTable EpisodeCols)
    (rows : List EpisodePayload) (eid : Int) :
    parentLink EpisodeCols.seriesSourceId (upsertEpisodes t inst tag rows) ⟨eid, inst⟩ =
      (parentLink EpisodeCols.seriesSourceId t ⟨eid, inst⟩).or (firstSeriesOf rows eid) :=
  parentLink_instanceBatch EpisodePayload.id inst (fun row => episodeValues row tag)
    (fun row old => { episodeValues row tag with
      seriesSourceId := old.seriesSourceId
      seasonNumber := old.seasonNumber
      episodeNumber := old.episodeNumber })
    EpisodeCols.seriesSourceId (fun _ _ => rfl) rows t eid

/-- **A file on record never changes episode**; a new one is filed under the
episode that carries it first. -/
@[simp] theorem episodeLink_upsertEpisodeFiles (t : WarehouseTable EpisodeFileCols)
    (files : List CarriedFile) (fid : Int) :
    parentLink EpisodeFileCols.episodeSourceId (upsertEpisodeFiles t inst tag files) ⟨fid, inst⟩ =
      (parentLink EpisodeFileCols.episodeSourceId t ⟨fid, inst⟩).or (firstOwnerOf files fid) :=
  parentLink_instanceBatch CarriedFile.fileId inst
    (fun f => EpisodeFileCols.mk f.ownerId (mediaCols tag.lower f.file) tag.syncSource tag.runId)
    (fun f old =>
      EpisodeFileCols.mk old.episodeSourceId (mediaCols tag.lower f.file) tag.syncSource tag.runId)
    EpisodeFileCols.episodeSourceId (fun _ _ => rfl) files t fid

/-- A movie file on record never changes movie. -/
@[simp] theorem movieLink_upsertMovieFiles (t : WarehouseTable MovieFileCols)
    (files : List CarriedFile) (fid : Int) :
    parentLink MovieFileCols.movieSourceId (upsertMovieFiles t inst tag files) ⟨fid, inst⟩ =
      (parentLink MovieFileCols.movieSourceId t ⟨fid, inst⟩).or (firstOwnerOf files fid) :=
  parentLink_instanceBatch CarriedFile.fileId inst
    (fun f => MovieFileCols.mk f.ownerId (mediaCols tag.lower f.file) tag.syncSource tag.runId)
    (fun f old =>
      MovieFileCols.mk old.movieSourceId (mediaCols tag.lower f.file) tag.syncSource tag.runId)
    MovieFileCols.movieSourceId (fun _ _ => rfl) files t fid

/-- A batch of series stays within its instance. -/
theorem sameElsewhere_upsertSeriesAll (t : WarehouseTable SeriesCols)
    (rows : List SeriesPayload) : SameElsewhere inst t (upsertSeriesAll t inst tag rows) :=
  fun _ hk => row_instanceBatch_of_ne SeriesPayload.id inst _ _ rows t hk

/-- A batch of episodes stays within its instance. -/
theorem sameElsewhere_upsertEpisodes (t : WarehouseTable EpisodeCols)
    (rows : List EpisodePayload) : SameElsewhere inst t (upsertEpisodes t inst tag rows) :=
  fun _ hk => row_instanceBatch_of_ne EpisodePayload.id inst _ _ rows t hk

/-- A batch of episodes' files stays within its instance. -/
theorem sameElsewhere_upsertEpisodeFiles (t : WarehouseTable EpisodeFileCols)
    (files : List CarriedFile) : SameElsewhere inst t (upsertEpisodeFiles t inst tag files) :=
  fun _ hk => row_instanceBatch_of_ne CarriedFile.fileId inst _ _ files t hk

/-- A batch of movies stays within its instance. -/
theorem sameElsewhere_upsertMovies (t : WarehouseTable MovieCols)
    (rows : List MoviePayload) : SameElsewhere inst t (upsertMovies t inst tag rows) :=
  fun _ hk => row_instanceBatch_of_ne MoviePayload.id inst _ _ rows t hk

/-- A batch of movies' files stays within its instance. -/
theorem sameElsewhere_upsertMovieFiles (t : WarehouseTable MovieFileCols)
    (files : List CarriedFile) : SameElsewhere inst t (upsertMovieFiles t inst tag files) :=
  fun _ hk => row_instanceBatch_of_ne CarriedFile.fileId inst _ _ files t hk

/-- A batch of series marks no row. -/
theorem noneMarked_upsertSeriesAll (t : WarehouseTable SeriesCols) (rows : List SeriesPayload) :
    KeyedTable.NoneMarked t (upsertSeriesAll t inst tag rows) :=
  KeyedTable.noneMarked_upsertAllLive _ _ _ rows t

/-- A batch of episodes marks no row. -/
theorem noneMarked_upsertEpisodes (t : WarehouseTable EpisodeCols) (rows : List EpisodePayload) :
    KeyedTable.NoneMarked t (upsertEpisodes t inst tag rows) :=
  KeyedTable.noneMarked_upsertAllLive _ _ _ rows t

/-- A batch of episodes' files marks no row. -/
theorem noneMarked_upsertEpisodeFiles (t : WarehouseTable EpisodeFileCols)
    (files : List CarriedFile) :
    KeyedTable.NoneMarked t (upsertEpisodeFiles t inst tag files) :=
  KeyedTable.noneMarked_upsertAllLive (fun f => RowKey.mk (CarriedFile.fileId f) inst)
    (fun f => EpisodeFileCols.mk f.ownerId (mediaCols tag.lower f.file) tag.syncSource tag.runId)
    (fun f old => EpisodeFileCols.mk old.episodeSourceId (mediaCols tag.lower f.file) tag.syncSource
      tag.runId) files t

/-- A batch of movies marks no row. -/
theorem noneMarked_upsertMovies (t : WarehouseTable MovieCols) (rows : List MoviePayload) :
    KeyedTable.NoneMarked t (upsertMovies t inst tag rows) :=
  KeyedTable.noneMarked_upsertAllLive _ _ _ rows t

/-- A batch of movies' files marks no row. -/
theorem noneMarked_upsertMovieFiles (t : WarehouseTable MovieFileCols)
    (files : List CarriedFile) :
    KeyedTable.NoneMarked t (upsertMovieFiles t inst tag files) :=
  KeyedTable.noneMarked_upsertAllLive (fun f => RowKey.mk (CarriedFile.fileId f) inst)
    (fun f => MovieFileCols.mk f.ownerId (mediaCols tag.lower f.file) tag.syncSource tag.runId)
    (fun f old => MovieFileCols.mk old.movieSourceId (mediaCols tag.lower f.file) tag.syncSource
      tag.runId) files t

/-- A chunk write stays inside its instance and flags nothing. -/
theorem writeSonarrChunk_frame (chunk : List FetchedSeries) (s : WriteState SonarrSeen) :
    SonarrFrame inst s.wh (writeSonarrChunk inst tag chunk s).wh := by
  rw [writeSonarrChunk_eq]
  exact ⟨sameElsewhere_upsertSeriesAll inst tag _ _, sameElsewhere_upsertEpisodes inst tag _ _,
    sameElsewhere_upsertEpisodeFiles inst tag _ _, rfl, rfl⟩

/-- Writing a chunk of series marks no row. -/
theorem writeSonarrChunk_noneMarked (chunk : List FetchedSeries) (s : WriteState SonarrSeen) :
    Warehouse.NoneMarked s.wh (writeSonarrChunk inst tag chunk s).wh := by
  rw [writeSonarrChunk_eq]
  exact ⟨noneMarked_upsertSeriesAll .., noneMarked_upsertEpisodes ..,
    noneMarked_upsertEpisodeFiles .., .refl _, .refl _⟩

/-- A movie batch stays inside its instance and flags nothing. -/
theorem writeRadarrChunk_frame (batch : List MoviePayload) (s : WriteState RadarrSeen) :
    RadarrFrame inst s.wh (writeRadarrChunk inst tag batch s).wh := by
  rw [writeRadarrChunk_eq]
  exact ⟨sameElsewhere_upsertMovies inst tag _ _, sameElsewhere_upsertMovieFiles inst tag _ _,
    rfl, rfl, rfl⟩

/-- Writing a chunk of movies marks no row. -/
theorem writeRadarrChunk_noneMarked (batch : List MoviePayload) (s : WriteState RadarrSeen) :
    Warehouse.NoneMarked s.wh (writeRadarrChunk inst tag batch s).wh := by
  rw [writeRadarrChunk_eq]
  exact ⟨.refl _, .refl _, .refl _, noneMarked_upsertMovies .., noneMarked_upsertMovieFiles ..⟩

end BatchRows

end Nebularr
