import Mathlib.Data.Finset.Basic
import Nebularr.MediaColumns
import Nebularr.SoftDelete

/-!
# The warehouse and its statements

Five tables, each keyed by `(source_id, instance_name)`, each with a
`deleted` flag and no foreign keys.  Every write the sync makes is one of the
statements below, and every statement has two lemmas: what it does to the
flag of an arbitrary row and what it does to its columns.  No upsert moves a
row that is already on file to another parent: `series_source_id`,
`episode_source_id` and `movie_source_id` are set by the insert arm only.

Rows carry every column a query or another statement reads; the two
bookkeeping timestamps (`seen_at`, `last_seen_at`) are left out.
-/

namespace Nebularr

/-- `series` as Sonarr's API lists it. -/
structure SeriesPayload where
  id : Int
  title : Option String := none
  monitored : Option Bool := none
  path : Option String := none
  genres : List String := []
  status : Option String := none
  seriesType : Option String := none
  tags : List Int := []
  year : Option Int := none
  tvdbId : Option String := none
deriving DecidableEq, Repr

/-- `episode` as Sonarr's API lists it.  `episodeFile` is there only when the
request asked for it. -/
structure EpisodePayload where
  id : Int
  seriesId : Int
  seasonNumber : Option Int := none
  episodeNumber : Option Int := none
  title : Option String := none
  airDateUtc : Option Int := none
  airDate : Option Int := none
  runtime : Option Int := none
  monitored : Option Bool := none
  hasFile : Option Bool := none
  episodeFileId : Option Int := none
  episodeFile : Option FilePayload := none
deriving DecidableEq, Repr

/-- `movie` as Radarr's API lists it. -/
structure MoviePayload where
  id : Int
  title : Option String := none
  year : Option Int := none
  monitored : Option Bool := none
  path : Option String := none
  genres : List String := []
  status : Option String := none
  tags : List Int := []
  hasFile : Option Bool := none
  movieFile : Option FilePayload := none
  tmdbId : Option String := none
  imdbId : Option String := none
deriving DecidableEq, Repr

/-- The file an episode payload carries, with its id:
`episode_file and isinstance(episode_file, dict) and episode_file.get("id")`. -/
def EpisodePayload.carriedFile (episode : EpisodePayload) : Option (Int × FilePayload) :=
  episode.episodeFile.bind fun file => file.truthyId.map fun fid => (fid, file)

/-- The file a movie payload carries, with its id. -/
def MoviePayload.carriedFile (movie : MoviePayload) : Option (Int × FilePayload) :=
  movie.movieFile.bind fun file => file.truthyId.map fun fid => (fid, file)

/-- Primary key of every warehouse table. -/
structure RowKey where
  sourceId : Int
  instanceName : String
deriving DecidableEq, Repr

/-- Columns of `warehouse.series`. -/
structure SeriesCols where
  title : String
  monitored : Bool
  path : Option String
  genres : List String
  status : Option String
  payload : SeriesPayload
  syncSource : String
  syncRunId : Int
deriving DecidableEq, Repr

/-- Columns of `warehouse.episode`. -/
structure EpisodeCols where
  seriesSourceId : Int
  seasonNumber : Int
  episodeNumber : Int
  title : String
  airDate : Option Int
  runtimeMinutes : Option Int
  monitored : Bool
  episodeFileId : Option Int
  payload : EpisodePayload
  syncSource : String
  syncRunId : Int
deriving DecidableEq, Repr

/-- Columns of `warehouse.episode_file`. -/
structure EpisodeFileCols where
  episodeSourceId : Int
  media : MediaCols
  syncSource : String
  syncRunId : Int
deriving DecidableEq, Repr

/-- Columns of `warehouse.movie`. -/
structure MovieCols where
  title : String
  year : Option Int
  monitored : Bool
  path : Option String
  status : Option String
  payload : MoviePayload
  syncSource : String
  syncRunId : Int
deriving DecidableEq, Repr

/-- Columns of `warehouse.movie_file`. -/
structure MovieFileCols where
  movieSourceId : Int
  media : MediaCols
  syncSource : String
  syncRunId : Int
deriving DecidableEq, Repr

/-- A warehouse table with columns `α`. -/
abbrev WarehouseTable (α : Type) := KeyedTable RowKey (SoftRow α)

/-- The `warehouse` schema. -/
structure Warehouse where
  series : WarehouseTable SeriesCols
  episode : WarehouseTable EpisodeCols
  episodeFile : WarehouseTable EpisodeFileCols
  movie : WarehouseTable MovieCols
  movieFile : WarehouseTable MovieFileCols

/-- The warehouse before the first sync. -/
def Warehouse.empty : Warehouse :=
  ⟨KeyedTable.empty, KeyedTable.empty, KeyedTable.empty, KeyedTable.empty, KeyedTable.empty⟩

/-- The run that issues a statement: `run_id` and the `sync_source` it writes, and
`str.lower` as its process has it. -/
structure WriteTag where
  runId : Int
  syncSource : String
  lower : String → String

/-- The parent a row is filed under, live or not; `parent` reads the parent
column. -/
def parentLink {α : Type} (parent : α → Int) (t : WarehouseTable α) (k : RowKey) : Option Int :=
  (t.cols k).map parent

/-- The link points at one of the listed parents. -/
def FiledUnder (link : Option Int) (ids : List Int) : Prop := ∃ id ∈ ids, link = some id

instance (link : Option Int) (ids : List Int) : Decidable (FiledUnder link ids) :=
  inferInstanceAs (Decidable (∃ id ∈ ids, link = some id))

/-- A row without a link is filed under nothing. -/
@[simp] theorem filedUnder_none (ids : List Int) : ¬ FiledUnder none ids := by
  simp [FiledUnder]

/-- A row with a link is filed under the ids that hold it. -/
@[simp] theorem filedUnder_some {id : Int} {ids : List Int} :
    FiledUnder (some id) ids ↔ id ∈ ids := by
  simp [FiledUnder]

/-- No row is filed under an empty list of ids. -/
@[simp] theorem filedUnder_nil (link : Option Int) : ¬ FiledUnder link [] := by
  simp [FiledUnder]

/-- A row is filed under two lists of ids together if it is under one of them.
-/
theorem filedUnder_append {link : Option Int} {ids ids' : List Int} :
    FiledUnder link (ids ++ ids') ↔ FiledUnder link ids ∨ FiledUnder link ids' := by
  cases link <;> simp

/-- The test of the marks, read as a proposition. -/
theorem any_mem_eq_false_iff {link : Option Int} {ids : List Int} :
    (link.any fun id => decide (id ∈ ids)) = false ↔ ¬ FiledUnder link ids := by
  cases link <;> simp

/-- The series an episode is filed under. -/
def Warehouse.seriesOf (w : Warehouse) (inst : String) (eid : Int) : Option Int :=
  parentLink EpisodeCols.seriesSourceId w.episode ⟨eid, inst⟩

/-- The episode a file is filed under. -/
def Warehouse.episodeOf (w : Warehouse) (inst : String) (fid : Int) : Option Int :=
  parentLink EpisodeFileCols.episodeSourceId w.episodeFile ⟨fid, inst⟩

/-- The movie a file is filed under. -/
def Warehouse.movieOf (w : Warehouse) (inst : String) (fid : Int) : Option Int :=
  parentLink MovieFileCols.movieSourceId w.movieFile ⟨fid, inst⟩

/-! ## Upserts -/

/-- The `values` row of `upsert_series`. -/
def seriesValues (row : SeriesPayload) (tag : WriteTag) : SeriesCols where
  title := row.title.getD ""
  monitored := row.monitored.getD true
  path := row.path
  genres := row.genres
  status := row.status
  payload := row
  syncSource := tag.syncSource
  syncRunId := tag.runId

/-- `upsert_series`: the conflict arm sets every column. -/
def upsertSeries (t : WarehouseTable SeriesCols) (inst : String) (row : SeriesPayload)
    (tag : WriteTag) : WarehouseTable SeriesCols :=
  t.upsertLive ⟨row.id, inst⟩ (seriesValues row tag) fun _ => seriesValues row tag

/-- `_episode_file_id`: Sonarr reports 0 for "no file". -/
def episodeFileId (row : EpisodePayload) : Option Int := row.episodeFileId.filter (· ≠ 0)

/-- The `values` row of `upsert_episode`. -/
def episodeValues (row : EpisodePayload) (tag : WriteTag) : EpisodeCols where
  seriesSourceId := row.seriesId
  seasonNumber := row.seasonNumber.getD 0
  episodeNumber := row.episodeNumber.getD 0
  title := row.title.getD ""
  airDate := row.airDateUtc.or row.airDate
  runtimeMinutes := row.runtime
  monitored := row.monitored.getD true
  episodeFileId := episodeFileId row
  payload := row
  syncSource := tag.syncSource
  syncRunId := tag.runId

/-- `upsert_episode`: the conflict arm keeps the series link and the season
and episode numbers on file. -/
def upsertEpisode (t : WarehouseTable EpisodeCols) (inst : String) (row : EpisodePayload)
    (tag : WriteTag) : WarehouseTable EpisodeCols :=
  t.upsertLive ⟨row.id, inst⟩ (episodeValues row tag) fun old =>
    { episodeValues row tag with
      seriesSourceId := old.seriesSourceId
      seasonNumber := old.seasonNumber
      episodeNumber := old.episodeNumber }

/-- `upsert_episode_file`: the conflict arm keeps the episode link on file. -/
def upsertEpisodeFile (t : WarehouseTable EpisodeFileCols) (inst : String) (episodeId fileId : Int)
    (file : FilePayload) (tag : WriteTag) : WarehouseTable EpisodeFileCols :=
  t.upsertLive ⟨fileId, inst⟩
    ⟨episodeId, mediaCols tag.lower file, tag.syncSource, tag.runId⟩ fun old =>
    ⟨old.episodeSourceId, mediaCols tag.lower file, tag.syncSource, tag.runId⟩

/-- The `values` row of `upsert_movie`. -/
def movieValues (row : MoviePayload) (tag : WriteTag) : MovieCols where
  title := row.title.getD ""
  year := row.year
  monitored := row.monitored.getD true
  path := row.path
  status := row.status
  payload := row
  syncSource := tag.syncSource
  syncRunId := tag.runId

/-- `upsert_movie`: the conflict arm sets every column. -/
def upsertMovie (t : WarehouseTable MovieCols) (inst : String) (row : MoviePayload)
    (tag : WriteTag) : WarehouseTable MovieCols :=
  t.upsertLive ⟨row.id, inst⟩ (movieValues row tag) fun _ => movieValues row tag

/-- `upsert_movie_file`: the conflict arm keeps the movie link on file. -/
def upsertMovieFile (t : WarehouseTable MovieFileCols) (inst : String) (movieId fileId : Int)
    (file : FilePayload) (tag : WriteTag) : WarehouseTable MovieFileCols :=
  t.upsertLive ⟨fileId, inst⟩
    ⟨movieId, mediaCols tag.lower file, tag.syncSource, tag.runId⟩ fun old =>
    ⟨old.movieSourceId, mediaCols tag.lower file, tag.syncSource, tag.runId⟩

/-! ## Tombstone statements

Each is one `update … set deleted = true where …`; the table and its parent
column are parameters, as they are in the source. -/

section Tombstones

variable {α : Type}

/-- `count_non_deleted_rows`. -/
def countNonDeletedRows (t : WarehouseTable α) (inst : String) : Nat :=
  t.countLiveWhere fun k _ => k.instanceName = inst

/-- `mark_tombstones`: with nothing seen the condition on ids is dropped. -/
def markTombstones (t : WarehouseTable α) (inst : String) (seen : Finset Int) : WarehouseTable α :=
  if seen = ∅ then
    t.markDeletedWhere fun k _ => k.instanceName = inst
  else
    t.markDeletedWhere fun k _ => k.instanceName = inst && k.sourceId ∉ seen

/-- `mark_deleted_source_ids`. -/
def markDeletedSourceIds (t : WarehouseTable α) (inst : String) (ids : List Int) :
    WarehouseTable α :=
  if ids = [] then t
  else t.markDeletedWhere fun k _ => k.instanceName = inst && k.sourceId ∈ ids

/-- `mark_missing_children`. -/
def markMissingChildren (t : WarehouseTable α) (inst : String) (parent : α → Int)
    (parentIds : List Int) (seen : Finset Int) : WarehouseTable α :=
  if parentIds = [] then t
  else t.markDeletedWhere fun k r =>
    k.instanceName = inst && parent r.cols ∈ parentIds && !r.deleted && k.sourceId ∉ seen

/-- `tombstone_superseded_episode_files` and `tombstone_superseded_movie_files`:
the other live files of one parent. -/
def tombstoneSuperseded (t : WarehouseTable α) (inst : String) (parent : α → Int)
    (parentId keepId : Int) : WarehouseTable α :=
  t.markDeletedWhere fun k r =>
    k.instanceName = inst && parent r.cols = parentId && k.sourceId ≠ keepId && !r.deleted

end Tombstones

/-- The subselect of `tombstone_episode_files_for_series`: the episode `eid`
has a row, live or not, under one of the given series. -/
def episodeUnderSeries (t : WarehouseTable EpisodeCols) (inst : String) (seriesIds : List Int)
    (eid : Int) : Bool :=
  (parentLink EpisodeCols.seriesSourceId t ⟨eid, inst⟩).any fun sid => sid ∈ seriesIds

/-- `tombstone_episode_files_for_series`. -/
def tombstoneEpisodeFilesForSeries (files : WarehouseTable EpisodeFileCols)
    (episodes : WarehouseTable EpisodeCols) (inst : String) (seriesIds : List Int) :
    WarehouseTable EpisodeFileCols :=
  if seriesIds = [] then files
  else files.markDeletedWhere fun k r =>
    k.instanceName = inst && !r.deleted &&
      episodeUnderSeries episodes inst seriesIds r.cols.episodeSourceId

/-! ## What the statements do to a row -/

/-- An upsert makes its own row live and leaves every other as it was; so too
for the four tables below. -/
@[simp] theorem isLive_upsertSeries (t : WarehouseTable SeriesCols) (inst : String)
    (row : SeriesPayload) (tag : WriteTag) (k : RowKey) :
    (upsertSeries t inst row tag).isLive k = (decide (k = ⟨row.id, inst⟩) || t.isLive k) :=
  KeyedTable.isLive_upsertLive ..

/-- An upsert of an episode revives its own row only. -/
@[simp] theorem isLive_upsertEpisode (t : WarehouseTable EpisodeCols) (inst : String)
    (row : EpisodePayload) (tag : WriteTag) (k : RowKey) :
    (upsertEpisode t inst row tag).isLive k = (decide (k = ⟨row.id, inst⟩) || t.isLive k) :=
  KeyedTable.isLive_upsertLive ..

/-- An upsert of an episode's file revives its own row only. -/
@[simp] theorem isLive_upsertEpisodeFile (t : WarehouseTable EpisodeFileCols) (inst : String)
    (eid fid : Int) (file : FilePayload) (tag : WriteTag) (k : RowKey) :
    (upsertEpisodeFile t inst eid fid file tag).isLive k =
      (decide (k = ⟨fid, inst⟩) || t.isLive k) :=
  KeyedTable.isLive_upsertLive ..

/-- An upsert of a movie revives its own row only. -/
@[simp] theorem isLive_upsertMovie (t : WarehouseTable MovieCols) (inst : String)
    (row : MoviePayload) (tag : WriteTag) (k : RowKey) :
    (upsertMovie t inst row tag).isLive k = (decide (k = ⟨row.id, inst⟩) || t.isLive k) :=
  KeyedTable.isLive_upsertLive ..

/-- An upsert of a movie's file revives its own row only. -/
@[simp] theorem isLive_upsertMovieFile (t : WarehouseTable MovieFileCols) (inst : String)
    (mid fid : Int) (file : FilePayload) (tag : WriteTag) (k : RowKey) :
    (upsertMovieFile t inst mid fid file tag).isLive k =
      (decide (k = ⟨fid, inst⟩) || t.isLive k) :=
  KeyedTable.isLive_upsertLive ..

section TombstoneLemmas

variable {α : Type} (t : WarehouseTable α) (inst : String) (k : RowKey)

/-- A mark changes no column. -/
@[simp] theorem cols_markTombstones (seen : Finset Int) :
    (markTombstones t inst seen).cols k = t.cols k := by
  unfold markTombstones
  split <;> simp

/-- **Set-difference tombstones.**  A row of the instance stays live exactly
when its id was seen; both arms of the statement say so. -/
@[simp] theorem isLive_markTombstones (seen : Finset Int) :
    (markTombstones t inst seen).isLive k =
      (t.isLive k && (k.instanceName ≠ inst || k.sourceId ∈ seen)) := by
  unfold markTombstones
  split
  · next hseen =>
      rw [KeyedTable.isLive_markDeletedWhere (q := fun k _ => decide (k.instanceName = inst))
        (fun _ _ => rfl)]
      cases hlive : t.isLive k with
      | false => rfl
      | true =>
          obtain ⟨c, hc⟩ := KeyedTable.exists_cols_of_isLive hlive
          simp [hc, hseen]
  · rw [KeyedTable.isLive_markDeletedWhere
      (q := fun k _ => k.instanceName = inst && decide (k.sourceId ∉ seen)) (fun _ _ => rfl)]
    cases hlive : t.isLive k with
    | false => rfl
    | true =>
        obtain ⟨c, hc⟩ := KeyedTable.exists_cols_of_isLive hlive
        simp [hc, Bool.not_and]

/-- A mark leaves a row under its parent. -/
@[simp] theorem parentLink_markTombstones (parent : α → Int) (seen : Finset Int) :
    parentLink parent (markTombstones t inst seen) k = parentLink parent t k := by
  simp [parentLink]

/-- A deletion by ids changes no column. -/
@[simp] theorem cols_markDeletedSourceIds (ids : List Int) :
    (markDeletedSourceIds t inst ids).cols k = t.cols k := by
  unfold markDeletedSourceIds
  split <;> simp

/-- A deletion by ids leaves a row under its parent. -/
@[simp] theorem parentLink_markDeletedSourceIds (parent : α → Int) (ids : List Int) :
    parentLink parent (markDeletedSourceIds t inst ids) k = parentLink parent t k := by
  simp [parentLink]

/-- A deletion by ids takes the listed rows of its instance, and no other. -/
@[simp] theorem isLive_markDeletedSourceIds (ids : List Int) :
    (markDeletedSourceIds t inst ids).isLive k =
      (t.isLive k && !(k.instanceName = inst && k.sourceId ∈ ids)) := by
  unfold markDeletedSourceIds
  split
  · next hids => simp [hids]
  · rw [KeyedTable.isLive_markDeletedWhere
      (q := fun k _ => k.instanceName = inst && decide (k.sourceId ∈ ids)) (fun _ _ => rfl)]
    cases hlive : t.isLive k with
    | false => rfl
    | true =>
        obtain ⟨c, hc⟩ := KeyedTable.exists_cols_of_isLive hlive
        simp [hc]

/-- A mark of missing children changes no column. -/
@[simp] theorem cols_markMissingChildren (parent : α → Int) (parentIds : List Int)
    (seen : Finset Int) : (markMissingChildren t inst parent parentIds seen).cols k = t.cols k := by
  unfold markMissingChildren
  split <;> simp

/-- A mark of missing children leaves a row under its parent. -/
@[simp] theorem parentLink_markMissingChildren (parent parent' : α → Int) (parentIds : List Int)
    (seen : Finset Int) :
    parentLink parent (markMissingChildren t inst parent' parentIds seen) k =
      parentLink parent t k := by
  simp [parentLink]

/-- A mark of missing children takes the rows of its instance that hang on one
of the parents and were not seen. -/
@[simp] theorem isLive_markMissingChildren (parent : α → Int) (parentIds : List Int)
    (seen : Finset Int) :
    (markMissingChildren t inst parent parentIds seen).isLive k =
      (t.isLive k && !(k.instanceName = inst && (parentLink parent t k).any (· ∈ parentIds)
        && k.sourceId ∉ seen)) := by
  unfold markMissingChildren
  split
  · next hids => cases h : parentLink parent t k <;> simp [hids]
  · rw [KeyedTable.isLive_markDeletedWhere
      (q := fun k c => k.instanceName = inst && decide (parent c ∈ parentIds) &&
        decide (k.sourceId ∉ seen)) (fun _ _ => by simp)]
    cases hlive : t.isLive k with
    | false => rfl
    | true =>
        obtain ⟨c, hc⟩ := KeyedTable.exists_cols_of_isLive hlive
        simp [parentLink, hc]

/-- A mark of superseded files changes no column. -/
@[simp] theorem cols_tombstoneSuperseded (parent : α → Int) (parentId keepId : Int) :
    (tombstoneSuperseded t inst parent parentId keepId).cols k = t.cols k := by
  simp [tombstoneSuperseded]

/-- A mark of superseded files leaves a row under its parent. -/
@[simp] theorem parentLink_tombstoneSuperseded (parent parent' : α → Int)
    (parentId keepId : Int) :
    parentLink parent (tombstoneSuperseded t inst parent' parentId keepId) k =
      parentLink parent t k := by
  simp [parentLink]

/-- A mark of superseded files takes the parent's other files of its instance.
-/
@[simp] theorem isLive_tombstoneSuperseded (parent : α → Int) (parentId keepId : Int) :
    (tombstoneSuperseded t inst parent parentId keepId).isLive k =
      (t.isLive k && !(k.instanceName = inst && parentLink parent t k = some parentId
        && k.sourceId ≠ keepId)) := by
  rw [tombstoneSuperseded, KeyedTable.isLive_markDeletedWhere
    (q := fun k c => k.instanceName = inst && decide (parent c = parentId) &&
      decide (k.sourceId ≠ keepId)) (fun _ _ => by simp)]
  cases hlive : t.isLive k with
  | false => rfl
  | true =>
      obtain ⟨c, hc⟩ := KeyedTable.exists_cols_of_isLive hlive
      simp [parentLink, hc]

end TombstoneLemmas

/-- A mark of a series' files changes no column. -/
@[simp] theorem cols_tombstoneEpisodeFilesForSeries (files : WarehouseTable EpisodeFileCols)
    (episodes : WarehouseTable EpisodeCols) (inst : String) (seriesIds : List Int) (k : RowKey) :
    (tombstoneEpisodeFilesForSeries files episodes inst seriesIds).cols k = files.cols k := by
  unfold tombstoneEpisodeFilesForSeries
  split <;> simp

/-- A mark of a series' files leaves a file under its episode. -/
@[simp] theorem parentLink_tombstoneEpisodeFilesForSeries (parent : EpisodeFileCols → Int)
    (files : WarehouseTable EpisodeFileCols) (episodes : WarehouseTable EpisodeCols)
    (inst : String) (seriesIds : List Int) (k : RowKey) :
    parentLink parent (tombstoneEpisodeFilesForSeries files episodes inst seriesIds) k =
      parentLink parent files k := by
  simp [parentLink]

/-- A mark of a series' files takes those that hang on an episode filed under
the series. -/
@[simp] theorem isLive_tombstoneEpisodeFilesForSeries (files : WarehouseTable EpisodeFileCols)
    (episodes : WarehouseTable EpisodeCols) (inst : String) (seriesIds : List Int) (k : RowKey) :
    (tombstoneEpisodeFilesForSeries files episodes inst seriesIds).isLive k =
      (files.isLive k && !(k.instanceName = inst &&
        (parentLink EpisodeFileCols.episodeSourceId files k).any
          (episodeUnderSeries episodes inst seriesIds))) := by
  unfold tombstoneEpisodeFilesForSeries
  split
  · next hids =>
      have hnone : ∀ eid, episodeUnderSeries episodes inst [] eid = false := by
        intro eid
        unfold episodeUnderSeries
        cases parentLink EpisodeCols.seriesSourceId episodes ⟨eid, inst⟩ <;> simp
      cases parentLink EpisodeFileCols.episodeSourceId files k <;> simp [hids, hnone]
  · rw [KeyedTable.isLive_markDeletedWhere
      (q := fun k c => k.instanceName = inst &&
        episodeUnderSeries episodes inst seriesIds c.episodeSourceId) (fun _ _ => by simp)]
    cases hlive : files.isLive k with
    | false => rfl
    | true =>
        obtain ⟨c, hc⟩ := KeyedTable.exists_cols_of_isLive hlive
        simp [parentLink, hc]

/-! ## Rows a statement cannot reach -/

/-- A file goes with a series when its episode is filed there. -/
theorem isLive_tombstoneEpisodeFilesForSeries_iff (files : WarehouseTable EpisodeFileCols)
    (episodes : WarehouseTable EpisodeCols) (inst : String) (seriesIds : List Int) (fid : Int) :
    (tombstoneEpisodeFilesForSeries files episodes inst seriesIds).isLive ⟨fid, inst⟩ = true ↔
      files.isLive ⟨fid, inst⟩ = true ∧
        ∀ eid, parentLink EpisodeFileCols.episodeSourceId files ⟨fid, inst⟩ = some eid →
          ¬ FiledUnder (parentLink EpisodeCols.seriesSourceId episodes ⟨eid, inst⟩) seriesIds := by
  rw [isLive_tombstoneEpisodeFilesForSeries]
  cases parentLink EpisodeFileCols.episodeSourceId files ⟨fid, inst⟩ with
  | none => simp
  | some eid => simp [episodeUnderSeries, any_mem_eq_false_iff]

section Elsewhere

variable {α : Type} {inst : String}

/-- No row of another instance differs between the two tables. -/
def SameElsewhere (inst : String) (t t' : WarehouseTable α) : Prop :=
  ∀ k : RowKey, k.instanceName ≠ inst → t'.row k = t.row k

/-- A table is as it was elsewhere if nothing is written. -/
theorem SameElsewhere.refl (t : WarehouseTable α) : SameElsewhere inst t t := fun _ _ => rfl

/-- Two writes that stay within an instance stay within it together. -/
theorem SameElsewhere.trans {t t' t'' : WarehouseTable α} (h : SameElsewhere inst t t')
    (h' : SameElsewhere inst t' t'') : SameElsewhere inst t t'' :=
  fun k hk => (h' k hk).trans (h k hk)

/-- A mark stays within its instance. -/
theorem sameElsewhere_markTombstones (t : WarehouseTable α) (seen : Finset Int) :
    SameElsewhere inst t (markTombstones t inst seen) := by
  intro k hk
  unfold markTombstones
  split
  · exact KeyedTable.row_markDeletedWhere_of_not (fun _ => by simp [hk]) t
  · exact KeyedTable.row_markDeletedWhere_of_not (fun _ => by simp [hk]) t

/-- A deletion by ids stays within its instance. -/
theorem sameElsewhere_markDeletedSourceIds (t : WarehouseTable α) (ids : List Int) :
    SameElsewhere inst t (markDeletedSourceIds t inst ids) := by
  intro k hk
  unfold markDeletedSourceIds
  split
  · rfl
  · exact KeyedTable.row_markDeletedWhere_of_not (fun _ => by simp [hk]) t

/-- A mark of missing children stays within its instance. -/
theorem sameElsewhere_markMissingChildren (t : WarehouseTable α) (parent : α → Int)
    (parentIds : List Int) (seen : Finset Int) :
    SameElsewhere inst t (markMissingChildren t inst parent parentIds seen) := by
  intro k hk
  unfold markMissingChildren
  split
  · rfl
  · exact KeyedTable.row_markDeletedWhere_of_not (fun _ => by simp [hk]) t

/-- A mark of a series' files stays within its instance. -/
theorem sameElsewhere_tombstoneEpisodeFilesForSeries (files : WarehouseTable EpisodeFileCols)
    (episodes : WarehouseTable EpisodeCols) (seriesIds : List Int) :
    SameElsewhere inst files (tombstoneEpisodeFilesForSeries files episodes inst seriesIds) := by
  intro k hk
  unfold tombstoneEpisodeFilesForSeries
  split
  · rfl
  · exact KeyedTable.row_markDeletedWhere_of_not (fun _ => by simp [hk]) files

/-- What a Sonarr writer of `inst` leaves alone: the rows of every other
instance and both Radarr tables. -/
structure SonarrFrame (inst : String) (w w' : Warehouse) : Prop where
  series : SameElsewhere inst w.series w'.series
  episode : SameElsewhere inst w.episode w'.episode
  episodeFile : SameElsewhere inst w.episodeFile w'.episodeFile
  movie : w'.movie = w.movie
  movieFile : w'.movieFile = w.movieFile

/-- What a Radarr writer of `inst` leaves alone. -/
structure RadarrFrame (inst : String) (w w' : Warehouse) : Prop where
  movie : SameElsewhere inst w.movie w'.movie
  movieFile : SameElsewhere inst w.movieFile w'.movieFile
  series : w'.series = w.series
  episode : w'.episode = w.episode
  episodeFile : w'.episodeFile = w.episodeFile

/-- A warehouse that is not written keeps Sonarr's frame. -/
theorem SonarrFrame.refl (w : Warehouse) : SonarrFrame inst w w :=
  ⟨SameElsewhere.refl _, SameElsewhere.refl _, SameElsewhere.refl _, rfl, rfl⟩

/-- A warehouse that is not written keeps Radarr's frame. -/
theorem RadarrFrame.refl (w : Warehouse) : RadarrFrame inst w w :=
  ⟨SameElsewhere.refl _, SameElsewhere.refl _, rfl, rfl, rfl⟩

/-- Two steps within Sonarr's frame are within it together. -/
theorem SonarrFrame.trans {w w' w'' : Warehouse} (h : SonarrFrame inst w w')
    (h' : SonarrFrame inst w' w'') : SonarrFrame inst w w'' where
  series := h.series.trans h'.series
  episode := h.episode.trans h'.episode
  episodeFile := h.episodeFile.trans h'.episodeFile
  movie := h'.movie.trans h.movie
  movieFile := h'.movieFile.trans h.movieFile

/-- Two steps within Radarr's frame are within it together. -/
theorem RadarrFrame.trans {w w' w'' : Warehouse} (h : RadarrFrame inst w w')
    (h' : RadarrFrame inst w' w'') : RadarrFrame inst w w'' where
  movie := h.movie.trans h'.movie
  movieFile := h.movieFile.trans h'.movieFile
  series := h'.series.trans h.series
  episode := h'.episode.trans h.episode
  episodeFile := h'.episodeFile.trans h.episodeFile

end Elsewhere

/-- From `w` to `w'` no row of any table was flagged. -/
structure Warehouse.NoneMarked (w w' : Warehouse) : Prop where
  series : KeyedTable.NoneMarked w.series w'.series
  episode : KeyedTable.NoneMarked w.episode w'.episode
  episodeFile : KeyedTable.NoneMarked w.episodeFile w'.episodeFile
  movie : KeyedTable.NoneMarked w.movie w'.movie
  movieFile : KeyedTable.NoneMarked w.movieFile w'.movieFile

namespace Warehouse.NoneMarked

/-- A warehouse that is not written has no row marked. -/
theorem refl (w : Warehouse) : NoneMarked w w :=
  ⟨.refl _, .refl _, .refl _, .refl _, .refl _⟩

/-- If neither of two steps marks a row, nor do both. -/
theorem trans {w w' w'' : Warehouse} (h : NoneMarked w w') (h' : NoneMarked w' w'') :
    NoneMarked w w'' where
  series := h.series.trans h'.series
  episode := h.episode.trans h'.episode
  episodeFile := h.episodeFile.trans h'.episodeFile
  movie := h.movie.trans h'.movie
  movieFile := h.movieFile.trans h'.movieFile

end Warehouse.NoneMarked

end Nebularr
