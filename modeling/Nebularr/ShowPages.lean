import Nebularr.ShowListing

/-!
# A show, season by season

The page of a show lists its seasons and then asks for the episodes of each.
Where no episode of the show has two files, it reads each live episode once
that way (`seasons_read_show`), whatever order the database gives each query.
-/

namespace Nebularr

section Rows

variable {w : Warehouse} {request : ShowEpisodesRequest} {e : RowKey × SoftRow EpisodeCols}

theorem mem_listedShowEpisodes : e ∈ listedShowEpisodes w request ↔
    w.episode.row e.1 = some e.2 ∧ ∃ s, showEpisodeListed w request e.1 e.2 = some s := by
  rw [listedShowEpisodes, ← Option.isSome_iff_exists]
  exact KeyedTable.mem_selectWhere_iff

theorem length_rowsOfShowEpisode {s : SeriesCols}
    (hs : showEpisodeListed w request e.1 e.2 = some s) :
    (rowsOfShowEpisode w request e).length = (episodeFiles w e.1 e.2.cols).length := by
  rw [rowsOfShowEpisode, hs, Option.toList_some, List.flatMap_singleton, List.length_map,
    length_episodeFileRows]

theorem key_of_mem_rowsOfShowEpisode (e : RowKey × SoftRow EpisodeCols) :
    ∀ row ∈ rowsOfShowEpisode w request e, row.key = e.1 := by
  intro row hrow
  obtain ⟨s, -, hrow⟩ := List.mem_flatMap.mp hrow
  obtain ⟨file, -, rfl⟩ := List.mem_map.mp hrow
  rfl

end Rows

instance (pg : TextRules) (request : ShowEpisodesRequest) :
    Std.TransCmp (showEpisodeOrder pg request) := by
  unfold showEpisodeOrder
  infer_instance

/-- The listing of a show: its items are the episodes of the show or the season. -/
def showEpisodeListing (pg : TextRules) (w : Warehouse) (request : ShowEpisodesRequest) :
    Listing RowKey EpisodeRow :=
  .ofJoin (listedShowEpisodes w request) (rowsOfShowEpisode w request) EpisodeRow.key
    (showEpisodeOrder pg request) inferInstance (KeyedTable.nodup_selectWhere _ _)
    (by
      intro e he
      obtain ⟨-, s, hs⟩ := mem_listedShowEpisodes.mp he
      rw [← List.length_pos_iff, length_rowsOfShowEpisode hs]
      exact episodeFiles_ne_nil w e.1 e.2.cols)
    key_of_mem_rowsOfShowEpisode
    (fun _ _ => key_eq_of_listingOrder_tie)

theorem serves_queryShowEpisodes {pg : TextRules} {w : Warehouse} {request : ShowEpisodesRequest} :
    Serves (showEpisodeListing pg w request) (queryShowEpisodes w request) := by
  intro answer limit offset
  have hitems : (showEpisodeListing pg w request).items.length =
      w.episode.countWhere fun key e => (showEpisodeListed w request key e).isSome :=
        List.length_map Prod.fst
  rw [hitems]
  rfl

/-- Each live episode of the show that does not know its own file has one live
file at most. -/
def ShowHasOneFile (w : Warehouse) (seriesId : Int) (inst : String) : Prop :=
  ∀ key e, w.episode.row key = some e → episodeOfShow seriesId inst key e = true →
    e.cols.episodeFileId = none → w.liveEpisodeFiles key ≤ 1

section Seasons

variable {pg : TextRules} {w : Warehouse} {seriesId : Int} {inst : String}

theorem nodup_showEpisodeRows {season : Option Int} {sortBy sortDir : String}
    (hone : ShowHasOneFile w seriesId inst) :
    ((showEpisodeListing pg w ⟨seriesId, inst, season, sortBy, sortDir⟩).rows.map
      EpisodeRow.key).Nodup := by
  refine (Listing.nodup_join_iff
    (KeyedTable.nodup_selectWhere _ _) key_of_mem_rowsOfShowEpisode).mpr ?_
  intro e he
  obtain ⟨hrow, s, hs⟩ := mem_listedShowEpisodes.mp he
  rw [length_rowsOfShowEpisode hs]
  cases hfid : e.2.cols.episodeFileId with
  | some fid => exact length_episodeFiles_of_known hfid
  | none =>
      have hshow := (Bool.and_eq_true_iff.mp (Option.filter_eq_some_iff.mp hs).2).1
      exact (length_episodeFiles_le_one_iff hfid).mpr (hone e.1 e.2 hrow hshow hfid)

/-- The pages of a season have each of its episodes once. -/
theorem season_read {season : Option Int} {sortBy sortDir : String}
    (hone : ShowHasOneFile w seriesId inst)
    {answers : ℕ → List EpisodeRow}
    (h : ∀ n, Answers (showEpisodeOrder pg ⟨seriesId, inst, season, sortBy, sortDir⟩)
      (showEpisodeRows w ⟨seriesId, inst, season, sortBy, sortDir⟩) (answers n)) (limit : Int) :
    ∃ fuel out,
      walkPages (fun n offset =>
        (queryShowEpisodes w ⟨seriesId, inst, season, sortBy, sortDir⟩ (answers n)
        limit offset).toPage) fuel 0 0 = some out ∧
      (out.map EpisodeRow.key).Perm
        ((listedShowEpisodes w ⟨seriesId, inst, season, sortBy, sortDir⟩).map Prod.fst) := by
  have hlists : ListsOnce (showEpisodeListing pg w ⟨seriesId, inst, season, sortBy, sortDir⟩)
      (queryShowEpisodes w ⟨seriesId, inst, season, sortBy, sortDir⟩) limit _ :=
    (serves_queryShowEpisodes.listsOnce_iff_nodup (Nat.le_refl _)).mpr (nodup_showEpisodeRows hone)
  obtain ⟨fuel, out, hout, hperm, -⟩ := hlists.walked answers h
  exact ⟨fuel, out, hout, hperm⟩

/-- **The seasons make up the show.**  Reading the seasons of a live show one
after the other, page by page, has each of its live episodes once. -/
theorem seasons_read_show {s : SoftRow SeriesCols} (hrow : w.series.row ⟨seriesId, inst⟩ = some s)
    (hlive : s.deleted = false) (hone : ShowHasOneFile w seriesId inst) {sortBy sortDir : String}
    {answers : Int → ℕ → List EpisodeRow}
    (hanswers : ∀ season n,
      Answers (showEpisodeOrder pg ⟨seriesId, inst, some season, sortBy, sortDir⟩)
      (showEpisodeRows w ⟨seriesId, inst, some season, sortBy, sortDir⟩) (answers season n))
        (limit : Int) :
    ∃ outs : Int → List EpisodeRow,
      (∀ season, ∃ fuel, walkPages (fun n offset =>
        (queryShowEpisodes w ⟨seriesId, inst, some season, sortBy, sortDir⟩ (answers season n) limit
          offset).toPage) fuel 0 0 = some (outs season)) ∧
      ((queryShowSeasons w seriesId inst).flatMap fun season =>
        (outs season).map EpisodeRow.key).Perm
        ((w.episode.selectWhere (episodeOfShow seriesId inst)).map Prod.fst) := by
  choose fuel outs hout hperm using fun season => season_read hone (hanswers season) limit
  refine ⟨outs, fun season => ⟨fuel season, hout season⟩, ?_⟩
  have hseason : ∀ season ∈ queryShowSeasons w seriesId inst,
      ((outs season).map EpisodeRow.key).Perm
      ((groupOf (fun e => e.2.cols.seasonNumber)
        (w.episode.selectWhere (episodeOfShow seriesId inst)) season).map Prod.fst) := by
    intro season _
    rw [← listedShowEpisodes_season hrow hlive season sortBy sortDir]
    exact hperm season
  refine (List.Perm.flatMap_left _ hseason).trans ?_
  rw [← List.map_flatMap]
  refine (flatMap_groupOf_perm (nodup_queryShowSeasons _ _) fun e he => ?_).map Prod.fst
  rw [mem_queryShowSeasons]
  exact List.mem_map_of_mem he

end Seasons

/-- A show with its files: the special's; two of episode 11, which knows the first
one; that of episode 12, which is gone; and none of episode 13. -/
def filedShow : Warehouse :=
  { showWithSpecial with
    episode :=
      markDeletedSourceIds
        (upsertEpisodes KeyedTable.empty "default" ⟨1, "full", String.toLower⟩ [
          { id := 10, seriesId := 1, seasonNumber := some 0 },
          { id := 11, seriesId := 1, seasonNumber := some 1, episodeFileId := some 31 },
          { id := 12, seriesId := 1, seasonNumber := some 2 },
          { id := 13, seriesId := 1, seasonNumber := some 2 },
          { id := 20, seriesId := 2, seasonNumber := some 1 }])
        "default" [12]
    episodeFile :=
      upsertEpisodeFiles KeyedTable.empty "default" ⟨1, "full", String.toLower⟩
        [⟨10, 30, {}⟩, ⟨11, 31, {}⟩, ⟨11, 33, {}⟩, ⟨12, 32, {}⟩] }

theorem filedShow_hasOneFile : ShowHasOneFile filedShow 1 "default" := by
  intro key e hrow hshow hfid
  have hall : ∀ row ∈ filedShow.episode.rows.entries, row.2.cols.episodeFileId = none →
      filedShow.liveEpisodeFiles row.1 ≤ 1 := by decide +kernel
  exact hall ⟨key, e⟩ (KeyedTable.row_eq_some_iff.mp hrow) hfid

/-- Its three seasons, one row a page, have the three episodes that are left. -/
theorem seasons_read_show_filedShow :
    ∃ (answers : Int → List EpisodeRow) (outs : Int → List EpisodeRow),
      (∀ season, ∃ fuel, walkPages (fun _ offset =>
        (queryShowEpisodes filedShow ⟨1, "default", some season, "air_date", "desc"⟩
          (answers season) 1 offset).toPage) fuel 0 0 = some (outs season)) ∧
      ((queryShowSeasons filedShow 1 "default").flatMap fun season =>
        (outs season).map EpisodeRow.key).Perm
          [⟨10, "default"⟩, ⟨11, "default"⟩, ⟨13, "default"⟩] := by
  obtain ⟨s, hrow, hlive⟩ : ∃ s,
      filedShow.series.row ⟨1, "default"⟩ = some s ∧ s.deleted = false := ⟨_, rfl, rfl⟩
  choose answers hanswers using fun season => exists_answers
    (showEpisodeOrder plainText ⟨1, "default", some season, "air_date", "desc"⟩)
    (showEpisodeRows filedShow ⟨1, "default", some season, "air_date", "desc"⟩)
  obtain ⟨outs, houts, hperm⟩ := seasons_read_show hrow hlive filedShow_hasOneFile
    (fun season _ => hanswers season) 1
  refine ⟨answers, outs, houts, hperm.trans ?_⟩
  have hepisodes : ((filedShow.episode.selectWhere (episodeOfShow 1 "default")).map Prod.fst).Perm
      [⟨10, "default"⟩, ⟨11, "default"⟩, ⟨13, "default"⟩] := by decide +kernel
  exact hepisodes

end Nebularr
