import Nebularr.CoverageView
import Nebularr.EpisodeInventory
import Nebularr.Interleaving

/-!
# Episodes without English audio

The headline counts `v_episodes_missing_english_audio`, a view over
`v_episode_files`.  The two tables beside it list the inventory rows that are
flagged `hasFile` and have no English audio.  The headline follows the episode
id of the file and needs a file row, the tables follow the file id of the
episode and need the flag, so each can have rows that the other has not.
-/

namespace Nebularr

section Reports

variable (w : Warehouse) (inst : String)

/-- `not ('english' = any(…) or 'eng' = any(…))`, with null languages read as
none. -/
def EpisodeRow.lacksEnglish (row : EpisodeRow) : Bool := !spokenEnglish (row.file.map Prod.snd)

/-- `v_episodes_missing_english_audio`. -/
def vEpisodesMissingEnglishAudio : List EpisodeRow :=
  (vEpisodeFiles w).filter EpisodeRow.lacksEnglish

/-- The headline: `count(*)` of the view. -/
def missingEnglishHeadline : ℕ :=
  (vEpisodesMissingEnglishAudio w).countP fun row => instanceListed inst row.key.instanceName

/-- The inventory rows that both tables list. -/
def missingEnglishRows : List EpisodeRow :=
  (episodeInventory w inst).filter fun row => row.hasFile && row.lacksEnglish

/-- `language-audit:missing_english_episodes`, without its limit. -/
def missingEnglishEpisodes : List EpisodeRow := missingEnglishRows w inst

/-- `media-deep-dive:detailed_missing_english`, without its limit. -/
def detailedMissingEnglish : List EpisodeRow := missingEnglishRows w inst

/-- The headline is the length of both tables. -/
structure HeadlineMatches : Prop where
  audit : missingEnglishHeadline w inst = (missingEnglishEpisodes w inst).length
  detailed : missingEnglishHeadline w inst = (detailedMissingEnglish w inst).length

/-! ## The links behind them -/

def flagged (e : RowKey × SoftRow EpisodeCols) : Bool := e.2.cols.payload.hasFile.getD false

def lacksEnglish (file : FileEntry) : Bool := !spokenEnglish (some file.2.cols.media)

/-- The file is live and names the episode. -/
def filedUnder (e : RowKey × SoftRow EpisodeCols) (file : FileEntry) : Bool :=
  !file.2.deleted && file.1.instanceName = e.1.instanceName &&
    file.2.cols.episodeSourceId = e.1.sourceId

/-- The pairs of an episode in scope and a file without English audio that pass. -/
def nonEnglishLinks (p : RowKey × SoftRow EpisodeCols → FileEntry → Bool) :
    List ((RowKey × SoftRow EpisodeCols) × FileEntry) :=
  (scopedEpisodes w inst).flatMap fun e =>
    (w.episodeFile.rows.entries.filter fun file => lacksEnglish file && p e file).map fun file =>
      (e, file)

/-- The links that only the headline follows: the episode is not flagged, or
its own file is another one. -/
def headlineOnly : List ((RowKey × SoftRow EpisodeCols) × FileEntry) :=
  nonEnglishLinks w inst fun e file => filedUnder e file && !(flagged e && ownFileOn e file)

/-- The links that only the tables follow: the file names another episode. -/
def tablesOnly : List ((RowKey × SoftRow EpisodeCols) × FileEntry) :=
  nonEnglishLinks w inst fun e file => (flagged e && ownFileOn e file) && !filedUnder e file

/-- The flagged episodes that are joined with no live file. -/
def flaggedWithoutFile : List (RowKey × SoftRow EpisodeCols) :=
  (scopedEpisodes w inst).filter fun e =>
    flagged e && !w.episodeFile.rows.entries.any (ownFileOn e)

/-- What only the headline counts is as many as what only the tables list. -/
def HeadlineBalances : Prop :=
  (headlineOnly w inst).length = (tablesOnly w inst).length + (flaggedWithoutFile w inst).length

end Reports

section Counting

variable {w : Warehouse} {inst : String}

theorem length_nonEnglishLinks (p : RowKey × SoftRow EpisodeCols → FileEntry → Bool) :
    (nonEnglishLinks w inst p).length =
      sumJoin (fun e file => lacksEnglish file && p e file) (fun _ => 1) (scopedEpisodes w inst)
        w.episodeFile.rows.entries := by
  rw [nonEnglishLinks, List.length_flatMap, sumJoin]
  congr 1
  refine List.map_congr_left fun e _ => ?_
  rw [List.length_map, length_filter_eq_sumWhere]

/-- A file names one episode. -/
theorem countP_filedUnder_le_one (file : FileEntry) :
    (scopedEpisodes w inst).countP (filedUnder · file) ≤ 1 := by
  have hkeys : ((scopedEpisodes w inst).map Prod.fst).Nodup := KeyedTable.nodup_selectWhere _ _
  have hsub : (((scopedEpisodes w inst).filter (filedUnder · file)).map Prod.fst) ⊆
      [⟨file.2.cols.episodeSourceId, file.1.instanceName⟩] := by
    intro key hkey
    obtain ⟨e, he, rfl⟩ := List.mem_map.mp hkey
    have hfiled := (List.mem_filter.mp he).2
    simp only [filedUnder, Bool.and_eq_true, decide_eq_true_eq] at hfiled
    rw [List.mem_singleton, hfiled.2, hfiled.1.2]
  have hnodup := hkeys.sublist ((List.filter_sublist (p := (filedUnder · file))).map Prod.fst)
  have hlength := (List.subperm_of_subset hnodup hsub).length_le
  rwa [List.length_map, ← List.countP_eq_length_filter] at hlength

/-- The view has a file when an episode in scope is named by it. -/
theorem filedInScope_eq (file : FileEntry) :
    filedInScope w inst file = decide (0 < (scopedEpisodes w inst).countP (filedUnder · file)) := by
  rw [Bool.eq_iff_iff, decide_eq_true_eq, List.countP_pos_iff, filedInScope, Option.any_eq_true]
  constructor
  · intro hview
    obtain ⟨row, hrow, hlisted⟩ := hview
    obtain ⟨hlive, e, s, he, hliveEpisode, hs, rfl⟩ := vEpisodeFile_eq_some_iff.mp hrow
    have hseries := scopedSeries_eq_some_iff.mpr ⟨hs, hliveEpisode, hlisted⟩
    refine ⟨(_, e), mem_scopedEpisodes.mpr ⟨he, s, hseries⟩, ?_⟩
    simp [filedUnder, hlive]
  · intro hjoined
    obtain ⟨⟨key, e⟩, hmem, hfiled⟩ := hjoined
    obtain ⟨he, s, hseries⟩ := mem_scopedEpisodes.mp hmem
    obtain ⟨hs, hliveEpisode, hlisted⟩ := scopedSeries_eq_some_iff.mp hseries
    simp only [filedUnder, Bool.and_eq_true, Bool.not_eq_true', decide_eq_true_eq] at hfiled
    obtain ⟨⟨hlive, hname⟩, hid⟩ := hfiled
    obtain ⟨eid, name⟩ := key
    obtain rfl : file.1.instanceName = name := hname
    obtain rfl : file.2.cols.episodeSourceId = eid := hid
    exact ⟨_, vEpisodeFile_eq_some_iff.mpr ⟨hlive, e, s, he, hliveEpisode, hs, rfl⟩, hlisted⟩

/-- **The headline follows the links that files name.** -/
theorem missingEnglishHeadline_eq :
    missingEnglishHeadline w inst =
      sumJoin (fun e file => lacksEnglish file && filedUnder e file) (fun _ => 1)
        (scopedEpisodes w inst) w.episodeFile.rows.entries := by
  have hcount : missingEnglishHeadline w inst =
      ((scopedEpisodeFiles w inst).map fun row =>
        if !spokenEnglish (row.file.map Prod.snd) then 1 else 0).sum := by
    rw [missingEnglishHeadline, vEpisodesMissingEnglishAudio, List.countP_filter,
      List.countP_eq_length_filter, length_filter_eq_sumWhere]
    refine (sumWhere_congr fun row _ => Bool.and_comm _ _).trans ?_
    exact sumWhere_and EpisodeRow.lacksEnglish _ (fun _ => 1) (vEpisodeFiles w)
  rw [hcount, sum_scopedEpisodeFiles fun file => if !spokenEnglish file then 1 else 0,
    sumJoin_and lacksEnglish, sumJoin_of_once fun file _ _ => countP_filedUnder_le_one file]
  exact sumWhere_congr fun file _ => filedInScope_eq file

/-- **The tables follow the links of the flagged episodes**, and list those
without a file besides. -/
theorem length_missingEnglishRows :
    (missingEnglishRows w inst).length =
      sumJoin (fun e file => lacksEnglish file && (flagged e && ownFileOn e file)) (fun _ => 1)
        (scopedEpisodes w inst) w.episodeFile.rows.entries +
          (flaggedWithoutFile w inst).length := by
  rw [missingEnglishRows, length_filter_eq_sumWhere, sumWhere_eq_sum,
    sum_episodeInventory_rows
      (fun e file => if flagged e && !spokenEnglish file then 1 else 0) _ fun _ _ _ => rfl,
    flaggedWithoutFile, length_filter_eq_sumWhere, sumWhere_eq_sum, sumJoin, ← List.sum_map_add]
  congr 1
  refine List.map_congr_left fun e _ => ?_
  rw [sum_leftJoin]
  congr 1
  · refine (sumWhere_and (fun file => flagged e && lacksEnglish file) (ownFileOn e) (fun _ => 1)
      w.episodeFile.rows.entries).symm.trans (sumWhere_congr fun file _ => ?_)
    rw [Bool.and_comm (flagged e), Bool.and_assoc]
  · have hany : (w.episodeFile.rows.entries.any fun file =>
        decide (episodeFileOn e.1 e.2.cols file.1 file.2).Holds) =
          w.episodeFile.rows.entries.any (ownFileOn e) := rfl
    rw [hany, Option.map_none, spokenEnglish_none]
    cases flagged e <;> cases w.episodeFile.rows.entries.any (ownFileOn e) <;> rfl

end Counting

/-- **The headline is the length of the tables exactly where the links that only
one side follows balance.** -/
theorem headlineMatches_iff (w : Warehouse) (inst : String) :
    HeadlineMatches w inst ↔ HeadlineBalances w inst := by
  have hbalance : missingEnglishHeadline w inst = (missingEnglishRows w inst).length ↔
      HeadlineBalances w inst := by
    rw [missingEnglishHeadline_eq, length_missingEnglishRows, sumJoin_eq_add_iff, HeadlineBalances,
      headlineOnly, tablesOnly, length_nonEnglishLinks, length_nonEnglishLinks]
    have hdiff : ∀ x y z : Bool, (x && y && !(x && z)) = (x && (y && !z)) := by decide
    simp only [hdiff]
  constructor
  · intro h
    exact hbalance.mp h.audit
  · intro h
    exact ⟨hbalance.mpr h, hbalance.mpr h⟩

/-! ### A file with two episodes -/

/-- Sonarr has series 1 with episodes 11 and 12 in the Japanese file 21. -/
def doubleEpisodeLibrary : SonarrLibrary where
  series := [{ id := 1 }]
  episodes := fun sid =>
    if sid = 1 then
      [{ id := 11, seriesId := 1, hasFile := some true, episodeFileId := some 21,
         episodeFile := some { id := some 21, languages := [{ name := some "Japanese" }] } },
       { id := 12, seriesId := 1, hasFile := some true, episodeFileId := some 21,
         episodeFile := some { id := some 21, languages := [{ name := some "Japanese" }] } }]
    else []
  series_nodup := emptiedLibrary.series_nodup
  series_id_ne_zero := emptiedLibrary.series_id_ne_zero
  episodes_absent := by
    intro sid hsid
    have hne : sid ≠ 1 := by simpa using hsid
    simp [hne]
  episode_series := by
    intro sid e he
    by_cases h : sid = 1 <;> simp_all
    obtain rfl | rfl := he <;> rfl
  episode_id_ne_zero := by
    intro sid e he
    by_cases h : sid = 1 <;> simp_all
    obtain rfl | rfl := he <;> decide
  episode_nodup := by
    intro sid
    by_cases h : sid = 1 <;> simp [h]
  episode_once := by
    intro sid sid' eid h h'
    by_cases hs : sid = 1 <;> by_cases hs' : sid' = 1 <;> simp_all [episodeIds]
  file_once := by
    intro sid sid' fid h h'
    by_cases hs : sid = 1 <;> by_cases hs' : sid' = 1 <;>
      simp_all [episodeFileIds, episodeFilesOf]

/-- One full run. -/
def doubleEpisodeRun : List Action := fullRunWritten ++ [.advance 0]

/-- The headline counts the one file row, the tables list both episodes. -/
theorem not_headlineMatches_doubleEpisode :
    ¬ ∀ (inst : String) (sonarr : SonarrLibrary) (radarr : RadarrLibrary) (w : World),
      Reachable (World.step inst) (.idle Warehouse.empty sonarr radarr) w →
        ∀ filter, HeadlineMatches w.wh filter := by
  intro h
  have hcounts : (replay (World.step "default") doubleEpisodeRun
      (.idle Warehouse.empty doubleEpisodeLibrary emptyRadarr)).map (fun w =>
        (missingEnglishHeadline w.wh "", (missingEnglishEpisodes w.wh "").length)) =
          some (1, 2) := by
    decide +kernel
  obtain ⟨w, hw, hfound⟩ := Option.map_eq_some_iff.mp hcounts
  obtain ⟨hheadline, htable⟩ := Prod.mk.inj hfound
  have hmatches := h "default" doubleEpisodeLibrary emptyRadarr w (reachable_of_replay hw) ""
  have haudit := hmatches.audit
  rw [hheadline, htable] at haudit
  cases haudit

end Nebularr
