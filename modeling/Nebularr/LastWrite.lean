import Nebularr.Warehouse

/-!
# Which upserts are last-write-wins

Each of the five statements lists its columns twice, in the insert arm and in
the conflict arm.  The conflict arms of `upsert_series` and `upsert_movie`
name every column; the other three leave some out.  An upsert is therefore
last-write-wins at a key exactly when the row on file, if there is one,
already agrees with the payload on the columns its conflict arm omits.
-/

namespace Nebularr

open KeyedTable (LastWriteWins lastWriteWins_upsertLive_iff lastWriteWins_upsertLive_const)

/-- The columns of `episode` that only the insert arm sets. -/
def EpisodeCols.placement (c : EpisodeCols) : Int × Int × Int :=
  (c.seriesSourceId, c.seasonNumber, c.episodeNumber)

section

variable (inst : String) (tag : WriteTag)

theorem lastWriteWins_upsertSeries (row : SeriesPayload) (t : WarehouseTable SeriesCols) :
    LastWriteWins (upsertSeries · inst row tag) ⟨row.id, inst⟩ t :=
  lastWriteWins_upsertLive_const _ _ t

theorem lastWriteWins_upsertMovie (row : MoviePayload) (t : WarehouseTable MovieCols) :
    LastWriteWins (upsertMovie · inst row tag) ⟨row.id, inst⟩ t :=
  lastWriteWins_upsertLive_const _ _ t

/-- An episode on file must already sit where the payload puts it. -/
theorem lastWriteWins_upsertEpisode_iff (row : EpisodePayload) (t : WarehouseTable EpisodeCols) :
    LastWriteWins (upsertEpisode · inst row tag) ⟨row.id, inst⟩ t ↔
      ∀ old, t.cols ⟨row.id, inst⟩ = some old →
        old.placement = (episodeValues row tag).placement := by
  refine lastWriteWins_upsertLive_iff.trans ?_
  refine forall₂_congr fun old _ => ?_
  simp only [EpisodeCols.placement, episodeValues, EpisodeCols.mk.injEq, Prod.mk.injEq, and_true]

/-- A file on file must already be filed under the episode it is written for. -/
theorem lastWriteWins_upsertEpisodeFile_iff (eid fid : Int) (file : FilePayload)
    (t : WarehouseTable EpisodeFileCols) :
    LastWriteWins (upsertEpisodeFile · inst eid fid file tag) ⟨fid, inst⟩ t ↔
      ∀ eid', parentLink EpisodeFileCols.episodeSourceId t ⟨fid, inst⟩ = some eid' →
        eid' = eid := by
  refine lastWriteWins_upsertLive_iff.trans ?_
  cases h : t.cols ⟨fid, inst⟩ <;> simp [parentLink, h]

theorem lastWriteWins_upsertMovieFile_iff (mid fid : Int) (file : FilePayload)
    (t : WarehouseTable MovieFileCols) :
    LastWriteWins (upsertMovieFile · inst mid fid file tag) ⟨fid, inst⟩ t ↔
      ∀ mid', parentLink MovieFileCols.movieSourceId t ⟨fid, inst⟩ = some mid' →
        mid' = mid := by
  refine lastWriteWins_upsertLive_iff.trans ?_
  cases h : t.cols ⟨fid, inst⟩ <;> simp [parentLink, h]

/-- **When the upserts are last-write-wins.**  Series and movies always; an
episode unless it has moved to another series, season or number; a file
unless it has moved to another episode or movie. -/
theorem upserts_lastWriteWins_iff (wh : Warehouse) :
    (∀ row, LastWriteWins (upsertSeries · inst row tag) ⟨row.id, inst⟩ wh.series) ∧
    (∀ row, LastWriteWins (upsertEpisode · inst row tag) ⟨row.id, inst⟩ wh.episode ↔
      ∀ old, wh.episode.cols ⟨row.id, inst⟩ = some old →
        old.placement = (episodeValues row tag).placement) ∧
    (∀ eid fid file,
      LastWriteWins (upsertEpisodeFile · inst eid fid file tag) ⟨fid, inst⟩ wh.episodeFile ↔
        ∀ eid', wh.episodeOf inst fid = some eid' → eid' = eid) ∧
    (∀ row, LastWriteWins (upsertMovie · inst row tag) ⟨row.id, inst⟩ wh.movie) ∧
    (∀ mid fid file,
      LastWriteWins (upsertMovieFile · inst mid fid file tag) ⟨fid, inst⟩ wh.movieFile ↔
        ∀ mid', wh.movieOf inst fid = some mid' → mid' = mid) := by
  refine ⟨?_, ?_, ?_, ?_, ?_⟩
  · exact fun row => lastWriteWins_upsertSeries inst tag row wh.series
  · exact fun row => lastWriteWins_upsertEpisode_iff inst tag row wh.episode
  · exact fun eid fid file =>
      lastWriteWins_upsertEpisodeFile_iff inst tag eid fid file wh.episodeFile
  · exact fun row => lastWriteWins_upsertMovie inst tag row wh.movie
  · exact fun mid fid file => lastWriteWins_upsertMovieFile_iff inst tag mid fid file wh.movieFile

end

/-- Sonarr renumbers episode 1 from S01E05 to S02E01. -/
def renumberedEpisode : EpisodePayload :=
  { id := 1, seriesId := 7, seasonNumber := some 2, episodeNumber := some 1 }

/-- The episode table as a sync before the renumbering left it. -/
def beforeRenumbering : WarehouseTable EpisodeCols :=
  upsertEpisode KeyedTable.empty "default"
    { renumberedEpisode with seasonNumber := some 1, episodeNumber := some 5 }
      ⟨1, "full", String.toLower⟩

/-- The renumbered episode keeps its old season and number. -/
theorem not_lastWriteWins_renumbered :
    ¬ LastWriteWins (upsertEpisode · "default" renumberedEpisode ⟨2, "full", String.toLower⟩)
      ⟨renumberedEpisode.id, "default"⟩ beforeRenumbering := by
  rw [lastWriteWins_upsertEpisode_iff]
  intro h
  have hcols : beforeRenumbering.cols ⟨renumberedEpisode.id, "default"⟩ =
      some (episodeValues
        { renumberedEpisode with seasonNumber := some 1, episodeNumber := some 5 }
          ⟨1, "full", String.toLower⟩) := by
    simp [beforeRenumbering, upsertEpisode, KeyedTable.cols_upsertLive]
  exact absurd (h _ hcols) (by decide)

end Nebularr
