import Nebularr.Candidates

/-!
# English coverage of a series

`v_anime_series_english_coverage` was written when an episode and its file
were linked by `episode_file.episode_source_id` alone.  The automations have
since moved to `EPISODE_FILE_JOIN`, the episode's own `episode_file_id`, and
the view has not.  Both are the same aggregate over a link from episodes to
files, so it is modelled once, with the link as its parameter.

The two values of an episode differ exactly when its own file is known and
one of the two links finds an English file that the other does not.
-/

namespace Nebularr

/-- The English test of the view, on a joined file or on nulls. -/
def spokenEnglish (file : Option MediaCols) : Bool :=
  let languages := file.elim [] MediaCols.audioLanguages
  decide ("english" ∈ languages) || decide ("eng" ∈ languages)

/-- The view's link: `ef.episode_source_id = e.source_id and … and not ef.deleted`. -/
def coverageFileOn (key : RowKey) (fileKey : RowKey) (file : SoftRow EpisodeFileCols) : Truth :=
  .all [.ofBool (file.cols.episodeSourceId = key.sourceId),
    .ofBool (fileKey.instanceName = key.instanceName), .ofBool !file.deleted]

/-- The files the view joins an episode row with. -/
def coverageFiles (w : Warehouse) (key : RowKey) (_e : EpisodeCols) : List (Option MediaCols) :=
  (leftJoin w.episodeFile.rows.entries fun file => coverageFileOn key file.1 file.2).map
    fun joined => joined.map fun file => file.2.cols.media

/-- The episodes the view counts: live, monitored, aired. -/
def coverageEpisodeOn (now : Int) (e : SoftRow EpisodeCols) : Truth :=
  .all [.ofBool !e.deleted, .ofBool e.cols.monitored, .ofBool e.cols.airDate.isSome,
    .onColumn e.cols.airDate fun d => d ≤ now]

/-- A row of `ep`. -/
structure CoverageEpisode where
  key : RowKey
  seriesSourceId : Int
  hasFile : Bool
  hasEnglishAudio : Bool
deriving DecidableEq, Repr

/-- `coverage_status`. -/
inductive CoverageStatus
  | full
  | partialCoverage
  | none
deriving DecidableEq, Repr

/-- A row of the view. -/
structure CoverageRow where
  instanceName : String
  sourceId : Int
  title : String
  monitored : Bool
  airedMonitoredEpisodes : ℕ
  downloadedEpisodes : ℕ
  englishEpisodes : ℕ
  nonEnglishEpisodes : ℕ
  coverageStatus : CoverageStatus
deriving DecidableEq, Repr

section View

/-- A link from an episode row to files. -/
abbrev FileLink := RowKey → EpisodeCols → List (Option MediaCols)

variable (filesOf : FileLink) (w : Warehouse) (now : Int)

/-- `ep`: one group for each counted episode. -/
def coverageEpisodes : List CoverageEpisode :=
  (w.episode.rows.entries.filter fun e => decide (coverageEpisodeOn now e.2).Holds).map fun e =>
    { key := e.1, seriesSourceId := e.2.cols.seriesSourceId
      hasFile := e.2.cols.payload.hasFile.getD false
      hasEnglishAudio := (filesOf e.1 e.2.cols).any spokenEnglish }

/-- The group of one series. -/
def coverageRow (eps : List CoverageEpisode) (key : RowKey) (s : SeriesCols) : CoverageRow :=
  let joined := eps.filter fun ep =>
    ep.key.instanceName = key.instanceName && ep.seriesSourceId = key.sourceId
  let nonEnglish := (joined.filter fun ep => ep.hasFile && !ep.hasEnglishAudio).length
  let downloaded := (joined.filter CoverageEpisode.hasFile).length
  { instanceName := key.instanceName, sourceId := key.sourceId, title := s.title
    monitored := s.monitored
    airedMonitoredEpisodes := joined.length
    downloadedEpisodes := downloaded
    englishEpisodes := (joined.filter fun ep => ep.hasFile && ep.hasEnglishAudio).length
    nonEnglishEpisodes := nonEnglish
    coverageStatus :=
      if 1 ≤ nonEnglish then .partialCoverage
      else if 0 < joined.length ∧ downloaded = joined.length then .full
      else .none }

/-- `v_anime_series_english_coverage`, over a link. -/
def animeSeriesEnglishCoverage (lower : Lowering) : List CoverageRow :=
  (w.series.rows.entries.filter fun s =>
    !s.2.deleted && lower.column s.2.cols.payload.seriesType = "anime").map fun s =>
      coverageRow (coverageEpisodes filesOf w now) s.1 s.2.cols

/-- `_series_targets`: the tag each series is to have. -/
def seriesTargets (lower : Lowering) : List (RowKey × CoverageStatus) :=
  ((animeSeriesEnglishCoverage filesOf w now lower).filter fun r =>
    r.coverageStatus ≠ .none).map fun r => (⟨r.sourceId, r.instanceName⟩, r.coverageStatus)

end View

/-- The view gives what `EPISODE_FILE_JOIN` gives: the English flag of every
counted episode, the row of every series and the tag of every series. -/
structure CoverageAgrees (lower : Lowering) (w : Warehouse) (now : Int) : Prop where
  episodes : coverageEpisodes (coverageFiles w) w now = coverageEpisodes (episodeFiles w) w now
  series : animeSeriesEnglishCoverage (coverageFiles w) w now lower =
    animeSeriesEnglishCoverage (episodeFiles w) w now lower
  targets : seriesTargets (coverageFiles w) w now lower =
    seriesTargets (episodeFiles w) w now lower

/-- The file is live and has English audio. -/
def EnglishFile (w : Warehouse) (inst : String) (fid : Int) : Prop :=
  ∃ file, w.episodeFile.row ⟨fid, inst⟩ = some file ∧ file.deleted = false ∧
    spokenEnglish (some file.cols.media) = true

/-- Wherever an episode's own file is known, it is English exactly when some
English file is filed under the episode. -/
def LinksAgree (w : Warehouse) (now : Int) : Prop :=
  ∀ key e fid, w.episode.row key = some e → (coverageEpisodeOn now e).Holds →
    e.cols.episodeFileId = some fid →
      ((∃ fid', w.episodeOf key.instanceName fid' = some key.sourceId ∧
        EnglishFile w key.instanceName fid') ↔ EnglishFile w key.instanceName fid)

section Links

variable {w : Warehouse} {key : RowKey} {e : EpisodeCols}

@[simp] theorem spokenEnglish_none : spokenEnglish none = false := rfl

/-- What the aggregate makes of a link: some live English file is on it. -/
private theorem any_spokenEnglish_link {on : RowKey → SoftRow EpisodeFileCols → Truth} :
    ((leftJoin w.episodeFile.rows.entries fun file => on file.1 file.2).map
        fun joined => joined.map fun file => file.2.cols.media).any spokenEnglish = true ↔
      ∃ fileKey file, w.episodeFile.row fileKey = some file ∧ (on fileKey file).Holds ∧
        spokenEnglish (some file.cols.media) = true := by
  rw [List.any_map, any_leftJoin rfl, List.any_eq_true]
  constructor
  · rintro ⟨⟨fileKey, file⟩, hmem, htest⟩
    simp only [Bool.and_eq_true, decide_eq_true_eq] at htest
    exact ⟨fileKey, file, KeyedTable.row_eq_some_iff.mpr hmem, htest.1, htest.2⟩
  · rintro ⟨fileKey, file, hrow, hon, henglish⟩
    refine ⟨⟨fileKey, file⟩, KeyedTable.row_eq_some_iff.mp hrow, ?_⟩
    simp only [Bool.and_eq_true, decide_eq_true_eq]
    exact ⟨hon, henglish⟩

/-- The view's value of an episode. -/
theorem any_coverageFiles_iff :
    (coverageFiles w key e).any spokenEnglish = true ↔
      ∃ fid, w.episodeOf key.instanceName fid = some key.sourceId ∧
        EnglishFile w key.instanceName fid := by
  unfold coverageFiles
  rw [any_spokenEnglish_link]
  constructor
  · rintro ⟨⟨fid, inst⟩, file, hrow, hon, henglish⟩
    simp only [coverageFileOn, Truth.holds_all, List.forall_mem_cons, Truth.holds_ofBool,
      decide_eq_true_eq, Bool.not_eq_true', List.not_mem_nil] at hon
    obtain ⟨hparent, rfl, hlive, -⟩ := hon
    refine ⟨fid, ?_, file, hrow, hlive, henglish⟩
    simp [Warehouse.episodeOf, parentLink, KeyedTable.cols, hrow, hparent]
  · rintro ⟨fid, hparent, file, hrow, hlive, henglish⟩
    refine ⟨⟨fid, key.instanceName⟩, file, hrow, ?_, henglish⟩
    simp only [Warehouse.episodeOf, parentLink, KeyedTable.cols, hrow, Option.map_some,
      Option.some.injEq] at hparent
    simp [coverageFileOn, hparent, hlive]

/-- The value of an episode whose own file is known, over `EPISODE_FILE_JOIN`. -/
theorem any_episodeFiles_of_known {fid : Int} (hfid : e.episodeFileId = some fid) :
    (episodeFiles w key e).any spokenEnglish = true ↔ EnglishFile w key.instanceName fid := by
  unfold episodeFiles
  rw [any_spokenEnglish_link]
  constructor
  · rintro ⟨⟨fid', inst⟩, file, hrow, hon, henglish⟩
    simp only [episodeFileOn, hfid, Truth.holds_all, List.forall_mem_cons, Truth.holds_ofBool,
      decide_eq_true_eq, Bool.not_eq_true', List.not_mem_nil, Truth.holds_or, Truth.holds_and,
      Truth.holds_onColumn, Option.isNone_some, Bool.false_eq_true, false_and, or_false,
      Option.some.injEq, exists_eq_left'] at hon
    obtain ⟨rfl, hlive, rfl, -⟩ := hon
    exact ⟨file, hrow, hlive, henglish⟩
  · rintro ⟨file, hrow, hlive, henglish⟩
    refine ⟨⟨fid, key.instanceName⟩, file, hrow, ?_, henglish⟩
    simp [episodeFileOn, hfid, hlive]

/-- Without an own file the fallback arm is the view's link. -/
theorem any_episodeFiles_of_unknown (hfid : e.episodeFileId = none) :
    (episodeFiles w key e).any spokenEnglish = (coverageFiles w key e).any spokenEnglish := by
  rw [Bool.eq_iff_iff]
  unfold episodeFiles coverageFiles
  rw [any_spokenEnglish_link, any_spokenEnglish_link]
  refine exists₂_congr fun fileKey file => and_congr_right fun _ => and_congr_left fun _ => ?_
  simp [episodeFileOn, coverageFileOn, hfid, and_assoc, and_comm, and_left_comm]

end Links

/-- **The view agrees with the join exactly when the two links agree on which
counted episodes have English audio.** -/
theorem coverageAgrees_iff (lower : Lowering) (w : Warehouse) (now : Int) :
    CoverageAgrees lower w now ↔ LinksAgree w now := by
  have hepisodes : coverageEpisodes (coverageFiles w) w now =
      coverageEpisodes (episodeFiles w) w now ↔ LinksAgree w now := by
    unfold coverageEpisodes LinksAgree
    rw [List.map_inj_left]
    simp only [List.mem_filter, decide_eq_true_eq, CoverageEpisode.mk.injEq, true_and]
    constructor
    · intro h key e fid hrow hcounted hfid
      have hsame := h ⟨key, e⟩ ⟨KeyedTable.row_eq_some_iff.mp hrow, hcounted⟩
      rw [← any_episodeFiles_of_known hfid, ← hsame, any_coverageFiles_iff]
    · rintro h ⟨key, e⟩ ⟨hmem, hcounted⟩
      have hrow := KeyedTable.row_eq_some_iff.mpr hmem
      cases hfid : e.cols.episodeFileId with
      | none => exact (any_episodeFiles_of_unknown hfid).symm
      | some fid =>
          rw [Bool.eq_iff_iff, any_coverageFiles_iff, any_episodeFiles_of_known hfid]
          exact h key e fid hrow hcounted hfid
  rw [← hepisodes]
  constructor
  · exact fun h => h.episodes
  · intro h
    have hseries : animeSeriesEnglishCoverage (coverageFiles w) w now lower =
        animeSeriesEnglishCoverage (episodeFiles w) w now lower := by
      unfold animeSeriesEnglishCoverage
      rw [h]
    refine ⟨h, hseries, ?_⟩
    unfold seriesTargets
    rw [hseries]

/-- Two aired episodes share one English file; its row names the first. -/
def sharedEnglishFile : Warehouse :=
  { Warehouse.empty with
    series := upsertSeries KeyedTable.empty "default" { id := 7, seriesType := some "anime" }
      ⟨1, "full", String.toLower⟩
    episode :=
      upsertEpisode (upsertEpisode KeyedTable.empty "default"
        { id := 1, seriesId := 7, airDate := some 0, hasFile := some true,
          episodeFileId := some 10 } ⟨1, "full", String.toLower⟩) "default"
        { id := 2, seriesId := 7, airDate := some 0, hasFile := some true,
          episodeFileId := some 10 } ⟨1, "full", String.toLower⟩
    episodeFile := upsertEpisodeFile KeyedTable.empty "default" 1 10
      { id := some 10, languages := [{ name := some "eng" }] } ⟨1, "full", String.toLower⟩ }

/-- The view takes the second episode for one without English audio. -/
theorem not_coverageAgrees_sharedEnglishFile : ¬ CoverageAgrees .ascii sharedEnglishFile 1 := by
  intro h
  have htargets := h.targets
  revert htargets
  decide +kernel

end Nebularr
