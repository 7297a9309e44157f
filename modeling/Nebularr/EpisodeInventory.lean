import Nebularr.JoinSums
import Nebularr.LibraryListing

/-!
# Episodes with files, from either end

The reports read episodes and files in two ways.  `EPISODE_INVENTORY_CTE`
starts from the live episodes and joins each with its files by
`EPISODE_FILE_JOIN`, keeping those without.  The older view `v_episode_files`
starts from the live files and joins each with the episode it names.

A sum over either is a sum over the file rows: in the inventory a file counts
once for each episode it is joined with (`sum_episodeInventory`), in the view
once if its episode is there (`sum_scopedEpisodeFiles`).
-/

namespace Nebularr

/-- `coalesce((e.payload ->> 'hasFile')::boolean, false)`. -/
def EpisodeRow.hasFile (row : EpisodeRow) : Bool := row.episode.payload.hasFile.getD false

def EpisodeRow.sizeBytes (row : EpisodeRow) : Option Int :=
  row.file.bind fun file => file.2.sizeBytes

section Rows

variable (w : Warehouse) (inst : String)

/-- The live series of a live episode that the instance filter lets through. -/
def scopedSeries (key : RowKey) (e : SoftRow EpisodeCols) : Option SeriesCols :=
  (joinedSeries w key e.cols).filter fun _ => !e.deleted && instanceListed inst key.instanceName

/-- The episodes of the inventory. -/
def scopedEpisodes : List (RowKey × SoftRow EpisodeCols) :=
  w.episode.selectWhere fun key e => (scopedSeries w inst key e).isSome

/-- `EPISODE_INVENTORY_CTE`. -/
def episodeInventory : List EpisodeRow :=
  (scopedEpisodes w inst).flatMap fun e =>
    (scopedSeries w inst e.1 e.2).toList.flatMap fun s =>
      (episodeFileRows w e.1 e.2.cols).map fun file => ⟨e.1, e.2.cols, s, file⟩

/-- A row of `warehouse.episode_file`. -/
abbrev FileEntry := Sigma fun _ : RowKey => SoftRow EpisodeFileCols

/-- The row of `v_episode_files` that a file row gives. -/
def vEpisodeFile (file : FileEntry) : Option EpisodeRow :=
  let key : RowKey := ⟨file.2.cols.episodeSourceId, file.1.instanceName⟩
  if file.2.deleted then none
  else
    ((w.episode.row key).filter fun e => !e.deleted).bind fun e =>
      (joinedSeries w key e.cols).map fun s => ⟨key, e.cols, s, some (file.1, file.2.cols.media)⟩

/-- `v_episode_files`. -/
def vEpisodeFiles : List EpisodeRow := w.episodeFile.rows.entries.filterMap (vEpisodeFile w)

/-- The view with the instance filter of a report. -/
def scopedEpisodeFiles : List EpisodeRow :=
  (vEpisodeFiles w).filter fun row => instanceListed inst row.key.instanceName

/-- `EPISODE_FILE_JOIN_ON`, between rows. -/
def ownFileOn (e : RowKey × SoftRow EpisodeCols) (file : FileEntry) : Bool :=
  decide (episodeFileOn e.1 e.2.cols file.1 file.2).Holds

/-- A file that the filtered view has. -/
def filedInScope (file : FileEntry) : Bool :=
  (vEpisodeFile w file).any fun row => instanceListed inst row.key.instanceName

end Rows

section Sums

variable {w : Warehouse} {inst : String} {M : Type} [AddCommMonoid M]

theorem scopedSeries_eq_some_iff {key : RowKey} {e : SoftRow EpisodeCols} {s : SeriesCols} :
    scopedSeries w inst key e = some s ↔
      joinedSeries w key e.cols = some s ∧ e.deleted = false ∧
        instanceListed inst key.instanceName = true := by
  rw [scopedSeries, Option.filter_eq_some_iff, Bool.and_eq_true, Bool.not_eq_true']

/-- A file is in the view with the live episode it names and its live series. -/
theorem vEpisodeFile_eq_some_iff {file : FileEntry} {row : EpisodeRow} :
    vEpisodeFile w file = some row ↔
      file.2.deleted = false ∧
        ∃ e s, w.episode.row ⟨file.2.cols.episodeSourceId, file.1.instanceName⟩ = some e ∧
          e.deleted = false ∧
          joinedSeries w ⟨file.2.cols.episodeSourceId, file.1.instanceName⟩ e.cols = some s ∧
          ⟨⟨file.2.cols.episodeSourceId, file.1.instanceName⟩, e.cols, s,
            some (file.1, file.2.cols.media)⟩ = row := by
  unfold vEpisodeFile
  cases file.2.deleted with
  | true => simp
  | false => simp [Option.bind_eq_some_iff, Option.filter_eq_some_iff, and_assoc]

theorem mem_scopedEpisodes {e : RowKey × SoftRow EpisodeCols} :
    e ∈ scopedEpisodes w inst ↔
      w.episode.row e.1 = some e.2 ∧ ∃ s, scopedSeries w inst e.1 e.2 = some s := by
  rw [scopedEpisodes, ← Option.isSome_iff_exists]
  exact KeyedTable.mem_selectWhere_iff

/-- A sum over the inventory, episode by episode. -/
theorem sum_episodeInventory_rows (c : RowKey × SoftRow EpisodeCols → Option MediaCols → M)
    (d : EpisodeRow → M)
    (h : ∀ e s file, d ⟨e.1, e.2.cols, s, file⟩ = c e (file.map Prod.snd)) :
    ((episodeInventory w inst).map d).sum =
      ((scopedEpisodes w inst).map fun e =>
        ((leftJoin w.episodeFile.rows.entries fun file =>
          episodeFileOn e.1 e.2.cols file.1 file.2).map fun joined =>
            c e (joined.map fun file => file.2.cols.media)).sum).sum := by
  rw [episodeInventory, sum_flatMap]
  congr 1
  refine List.map_congr_left fun e he => ?_
  obtain ⟨-, s, hs⟩ := mem_scopedEpisodes.mp he
  rw [hs, Option.toList_some, List.flatMap_singleton, List.map_map, episodeFileRows, List.map_map]
  congr 1
  refine List.map_congr_left fun joined _ => ?_
  have hrow := h e s (joined.map fun file => (file.1, file.2.cols.media))
  rw [Option.map_map] at hrow
  exact hrow

/-- **In the inventory a file counts once for each episode it is joined with.** -/
theorem sum_episodeInventory (c : Option MediaCols → M) (hnull : c none = 0) :
    ((episodeInventory w inst).map fun row => c (row.file.map Prod.snd)).sum =
      sumJoin ownFileOn (fun file => c (some file.2.cols.media)) (scopedEpisodes w inst)
        w.episodeFile.rows.entries := by
  rw [sum_episodeInventory_rows (fun _ => c) _ fun _ _ _ => rfl, sumJoin]
  congr 1
  refine List.map_congr_left fun e _ => ?_
  rw [sum_leftJoin]
  simp only [Option.map_none, hnull, ite_self, add_zero]
  rfl

/-- **In the view a file counts once, if its episode is there.** -/
theorem sum_scopedEpisodeFiles (c : Option MediaCols → M) :
    ((scopedEpisodeFiles w inst).map fun row => c (row.file.map Prod.snd)).sum =
      sumWhere (filedInScope w inst) (fun file => c (some file.2.cols.media))
        w.episodeFile.rows.entries := by
  unfold scopedEpisodeFiles vEpisodeFiles
  induction w.episodeFile.rows.entries with
  | nil => rfl
  | cons file rest ih =>
      rw [sumWhere_cons, ← ih, List.filterMap_cons]
      cases hrow : vEpisodeFile w file with
      | none => simp [filedInScope, hrow]
      | some row =>
          have hfile : row.file = some (file.1, file.2.cols.media) := by
            obtain ⟨-, e, s, -, -, -, rfl⟩ := vEpisodeFile_eq_some_iff.mp hrow
            rfl
          by_cases hlisted : instanceListed inst row.key.instanceName = true
          · simp [filedInScope, hrow, hlisted, hfile]
          · simp [filedInScope, hrow, hlisted]

end Sums

end Nebularr
