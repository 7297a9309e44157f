import Nebularr.EpisodeInventory
import Nebularr.GroupFold

/-!
# Storage by series

`media-deep-dive:top_series_storage` groups the inventory,
`storage-growth:top_series_by_storage` groups the view, and both leave out the
rows without a size.  Over all its groups a panel reports the sizes of its
rows, so the first counts a file as often as it is joined.
-/

namespace Nebularr

/-- `sum(size_bytes)` and `count(*)`. -/
structure StorageTotal where
  bytes : Int
  files : ℕ
deriving DecidableEq, Repr

/-- A storage panel: the rows with a size, grouped. -/
def storageBy {κ : Type} [DecidableEq κ] (keyOf : EpisodeRow → κ) (rows : List EpisodeRow) :
    List (κ × StorageTotal) :=
  groupFold keyOf (fun _ => ⟨0, 0⟩)
    (fun row total => ⟨total.bytes + row.sizeBytes.getD 0, total.files + 1⟩)
    (rows.filter fun row => row.sizeBytes.isSome)

/-- `media-deep-dive:top_series_storage`. -/
def topSeriesStorage (w : Warehouse) (inst : String) :
    List ((String × String × Bool) × StorageTotal) :=
  storageBy (fun row => (row.key.instanceName, row.series.title, row.series.monitored))
    (episodeInventory w inst)

/-- `storage-growth:top_series_by_storage`. -/
def topSeriesByStorage (w : Warehouse) (inst : String) : List ((String × String) × StorageTotal) :=
  storageBy (fun row => (row.series.title, row.key.instanceName)) (scopedEpisodeFiles w inst)

/-- The columns of a panel, summed over all its rows. -/
def panelTotal {κ : Type} (panel : List (κ × StorageTotal)) : StorageTotal :=
  ⟨(panel.map fun row => row.2.bytes).sum, (panel.map fun row => row.2.files).sum⟩

def hasSize (file : FileEntry) : Bool := file.2.cols.media.sizeBytes.isSome

/-- The sizes of file rows, and how many there are. -/
def filesTotal (files : List FileEntry) : StorageTotal :=
  ⟨(files.map fun file => file.2.cols.media.sizeBytes.getD 0).sum, files.length⟩

section Storage

variable (w : Warehouse) (inst : String)

/-- How many episodes of the inventory a file is joined with. -/
def joinedEpisodes (file : FileEntry) : ℕ := (scopedEpisodes w inst).countP (ownFileOn · file)

/-- The live, sized files that belong to a live episode of a live series. -/
def ownedFiles : List FileEntry :=
  w.episodeFile.rows.entries.filter fun file =>
    hasSize file && !file.2.deleted && decide (0 < joinedEpisodes w inst file)

/-- Both panels count each of these files once. -/
structure StorageCountsOnce : Prop where
  owned : panelTotal (topSeriesStorage w inst) = filesTotal (ownedFiles w inst)
  panels : panelTotal (topSeriesStorage w inst) = panelTotal (topSeriesByStorage w inst)

/-- The sized files that only an episode's own file id leads to. -/
def onlyOwned : List FileEntry :=
  w.episodeFile.rows.entries.filter fun file =>
    hasSize file && (decide (0 < joinedEpisodes w inst file) && !filedInScope w inst file)

/-- The sized files that only the episode id of the file leads to. -/
def onlyFiled : List FileEntry :=
  w.episodeFile.rows.entries.filter fun file =>
    hasSize file && (filedInScope w inst file && !decide (0 < joinedEpisodes w inst file))

/-- No sized file is joined twice, and what only the one link leads to weighs
as much as what only the other does. -/
structure LinksBalance : Prop where
  unshared : ∀ file ∈ w.episodeFile.rows.entries, hasSize file = true →
    joinedEpisodes w inst file ≤ 1
  balanced : filesTotal (onlyOwned w inst) = filesTotal (onlyFiled w inst)

end Storage

/-! ## Totals as sums over the files -/

/-- What a joined file adds to `sum(size_bytes)`. -/
def byteWeight (file : Option MediaCols) : Int := (file.bind MediaCols.sizeBytes).getD 0

/-- What a joined file adds to `count(*)`. -/
def fileWeight (file : Option MediaCols) : ℕ :=
  if (file.bind MediaCols.sizeBytes).isSome then 1 else 0

/-- The sizes of the files that pass, and how many have one. -/
def totalWhere (p : FileEntry → Bool) (files : List FileEntry) : StorageTotal :=
  ⟨sumWhere p (fun file => byteWeight (some file.2.cols.media)) files,
    sumWhere p (fun file => fileWeight (some file.2.cols.media)) files⟩

section Totals

variable {w : Warehouse} {inst : String}

/-- **Over all groups a panel counts its rows.** -/
theorem panelTotal_storageBy {κ : Type} [DecidableEq κ] (keyOf : EpisodeRow → κ)
    (rows : List EpisodeRow) :
    panelTotal (storageBy keyOf rows) =
      ⟨(rows.map fun row => byteWeight (row.file.map Prod.snd)).sum,
        (rows.map fun row => fileWeight (row.file.map Prod.snd)).sum⟩ := by
  have hbytes : ((storageBy keyOf rows).map fun row => row.2.bytes).sum =
      sumWhere (fun row : EpisodeRow => row.sizeBytes.isSome) (fun row => row.sizeBytes.getD 0)
        rows :=
    sum_groupFold (m := StorageTotal.bytes) (fun _ => rfl) (fun _ _ => rfl) _
  have hfiles : ((storageBy keyOf rows).map fun row => row.2.files).sum =
      sumWhere (fun row : EpisodeRow => row.sizeBytes.isSome) (fun _ => 1) rows :=
    sum_groupFold (m := StorageTotal.files) (fun _ => rfl) (fun _ _ => rfl) _
  have hrows : ∀ row : EpisodeRow, row.sizeBytes =
      (row.file.map Prod.snd).bind MediaCols.sizeBytes := by
    intro row
    rw [Option.bind_map]
    rfl
  rw [panelTotal, hbytes, hfiles, sumWhere_eq_sum, sumWhere_eq_sum]
  congr 2
  · refine List.map_congr_left fun row _ => ?_
    rw [byteWeight, hrows]
    cases (row.file.map Prod.snd).bind MediaCols.sizeBytes <;> rfl
  · refine List.map_congr_left fun row _ => ?_
    rw [fileWeight, hrows]

theorem filesTotal_filter (p : FileEntry → Bool) (files : List FileEntry) :
    filesTotal (files.filter fun file => hasSize file && p file) = totalWhere p files := by
  have hbytes : ((files.filter fun file => hasSize file && p file).map fun file =>
      file.2.cols.media.sizeBytes.getD 0).sum =
        sumWhere p (fun file => byteWeight (some file.2.cols.media)) files := by
    refine (sumWhere_and hasSize p _ files).trans ?_
    congr 1
    funext file
    rw [hasSize, byteWeight, Option.bind_some]
    cases file.2.cols.media.sizeBytes <;> rfl
  rw [filesTotal, length_filter_eq_sumWhere, sumWhere_and, totalWhere, hbytes]
  rfl

/-- A deleted file is joined with nothing. -/
theorem live_of_joined {file : FileEntry} (h : 0 < joinedEpisodes w inst file) :
    file.2.deleted = false := by
  obtain ⟨e, -, hon⟩ := List.countP_pos_iff.mp h
  have hholds := Truth.holds_all.mp (of_decide_eq_true hon) (.ofBool !file.2.deleted) (by simp)
  simpa using hholds

theorem ownedFiles_eq :
    ownedFiles w inst = w.episodeFile.rows.entries.filter fun file =>
      hasSize file && decide (0 < joinedEpisodes w inst file) := by
  refine List.filter_congr fun file _ => ?_
  by_cases hjoined : 0 < joinedEpisodes w inst file
  · rw [live_of_joined hjoined]
    simp
  · simp [hjoined]

/-- The first panel over all its rows. -/
theorem panelTotal_topSeriesStorage :
    panelTotal (topSeriesStorage w inst) =
      ⟨sumJoin ownFileOn (fun file => byteWeight (some file.2.cols.media)) (scopedEpisodes w inst)
          w.episodeFile.rows.entries,
        sumJoin ownFileOn (fun file => fileWeight (some file.2.cols.media)) (scopedEpisodes w inst)
          w.episodeFile.rows.entries⟩ := by
  rw [topSeriesStorage, panelTotal_storageBy, sum_episodeInventory byteWeight rfl,
    sum_episodeInventory fileWeight rfl]

/-- The second panel over all its rows. -/
theorem panelTotal_topSeriesByStorage :
    panelTotal (topSeriesByStorage w inst) =
      totalWhere (filedInScope w inst) w.episodeFile.rows.entries := by
  rw [topSeriesByStorage, panelTotal_storageBy, sum_scopedEpisodeFiles byteWeight,
    sum_scopedEpisodeFiles fileWeight, totalWhere]

/-- **The first panel counts its files once exactly where it shares none.** -/
theorem owned_iff :
    panelTotal (topSeriesStorage w inst) = filesTotal (ownedFiles w inst) ↔
      ∀ file ∈ w.episodeFile.rows.entries, hasSize file = true →
        joinedEpisodes w inst file ≤ 1 := by
  rw [panelTotal_topSeriesStorage, ownedFiles_eq, filesTotal_filter, totalWhere]
  have hsized : ∀ file : FileEntry, fileWeight (some file.2.cols.media) ≠ 0 ↔
      hasSize file = true := by
    intro file
    rw [fileWeight, hasSize, Option.bind_some]
    cases file.2.cols.media.sizeBytes <;> simp
  constructor
  · intro h file hfile hsize
    have hcount := (StorageTotal.mk.inj h).2
    exact sumJoin_eq_sumWhere_iff.mp hcount file hfile ((hsized file).mpr hsize)
  · intro h
    have honce : ∀ file ∈ w.episodeFile.rows.entries, fileWeight (some file.2.cols.media) ≠ 0 →
        (scopedEpisodes w inst).countP (ownFileOn · file) ≤ 1 :=
      fun file hfile hweight => h file hfile ((hsized file).mp hweight)
    have honce' : ∀ file ∈ w.episodeFile.rows.entries, byteWeight (some file.2.cols.media) ≠ 0 →
        (scopedEpisodes w inst).countP (ownFileOn · file) ≤ 1 := by
      intro file hfile hweight
      refine h file hfile ?_
      rw [byteWeight, Option.bind_some] at hweight
      rw [hasSize]
      cases hsize : file.2.cols.media.sizeBytes with
      | none => simp [hsize] at hweight
      | some size => rfl
    rw [sumJoin_of_once honce, sumJoin_of_once honce']
    rfl

/-- **Two selections of files agree exactly where their differences do.** -/
theorem totalWhere_eq_iff {p q : FileEntry → Bool} {files : List FileEntry} :
    totalWhere p files = totalWhere q files ↔
      totalWhere (fun file => p file && !q file) files =
        totalWhere (fun file => q file && !p file) files := by
  unfold totalWhere
  rw [StorageTotal.mk.injEq, StorageTotal.mk.injEq]
  exact and_congr sumWhere_eq_iff sumWhere_eq_iff

end Totals

/-- **Each live file is counted once, by both panels, exactly where no sized
file is shared and the two links balance.** -/
theorem storageCountsOnce_iff (w : Warehouse) (inst : String) :
    StorageCountsOnce w inst ↔ LinksBalance w inst := by
  have hsecond : filesTotal (ownedFiles w inst) = panelTotal (topSeriesByStorage w inst) ↔
      filesTotal (onlyOwned w inst) = filesTotal (onlyFiled w inst) := by
    rw [ownedFiles_eq, filesTotal_filter, panelTotal_topSeriesByStorage, onlyOwned, onlyFiled,
      filesTotal_filter, filesTotal_filter]
    exact totalWhere_eq_iff
  constructor
  · intro h
    exact ⟨owned_iff.mp h.owned, hsecond.mp (h.owned.symm.trans h.panels)⟩
  · intro h
    have howned := owned_iff.mpr h.unshared
    exact ⟨howned, howned.trans (hsecond.mpr h.balanced)⟩

/-- Two episodes in one file of a gigabyte. -/
def sharedSizedFile : Warehouse :=
  { Warehouse.empty with
    series := upsertSeries KeyedTable.empty "default" { id := 7, title := some "Akira" }
      ⟨1, "full", String.toLower⟩
    episode :=
      upsertEpisode (upsertEpisode KeyedTable.empty "default"
        { id := 1, seriesId := 7, hasFile := some true, episodeFileId := some 10 }
          ⟨1, "full", String.toLower⟩)
        "default"
        { id := 2, seriesId := 7, hasFile := some true, episodeFileId := some 10 }
          ⟨1, "full", String.toLower⟩
    episodeFile := upsertEpisodeFile KeyedTable.empty "default" 1 10
      { id := some 10, size := some 1000000000 } ⟨1, "full", String.toLower⟩ }

/-- The first panel reports two gigabytes in two files. -/
theorem not_storageCountsOnce_shared : ¬ ∀ w inst, StorageCountsOnce w inst := by
  intro h
  have howned := (h sharedSizedFile "").owned
  revert howned
  decide +kernel

end Nebularr
