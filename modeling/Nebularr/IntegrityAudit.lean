import Mathlib.Algebra.Order.Ring.Int
import Mathlib.Algebra.Order.Ring.Nat
import Mathlib.Data.List.Perm.Subperm
import Nebularr.DistinctOn
import Nebularr.FullSync
import Nebularr.Library
import Nebularr.WebhookJobs

/-!
# The integrity audit

`run_integrity_audit` compares what an Arr's list endpoint counts with the live
rows of the warehouse: items and files, and the bytes, which it records and does
not judge by.  It sees numbers only.  So it is exact where the warehouse deviates
to one side (`audit_exact`): rows that are missing cannot be made up for by rows
that should be gone.

The two sides count files differently.  Sonarr counts the episodes that have a
file, the warehouse the files; where one file holds two episodes the numbers
differ for ever, also right after a completed full sync.
-/

namespace Nebularr

/-! ## What is counted -/

/-- The three counts of an audit. -/
structure AuditCounts where
  itemCount : Int
  fileCount : Int
  sizeBytes : Int
deriving DecidableEq, Repr

/-- A row of Sonarr's series list, with the statistics that the audit reads; a
row without them counts as 0. -/
structure ListedSeries where
  payload : SeriesPayload
  episodeFileCount : Option Int := none
  sizeOnDisk : Option Int := none
deriving DecidableEq, Repr

/-- A row of Radarr's movie list. -/
structure ListedMovie where
  payload : MoviePayload
  sizeOnDisk : Option Int := none
deriving DecidableEq, Repr

/-- `arr_counts` of a Sonarr. -/
def sonarrCounts (rows : List ListedSeries) : AuditCounts where
  itemCount := rows.length
  fileCount := (rows.map fun s => s.episodeFileCount.getD 0).sum
  sizeBytes := (rows.map fun s => s.sizeOnDisk.getD 0).sum

/-- `arr_counts` of a Radarr. -/
def radarrCounts (rows : List ListedMovie) : AuditCounts where
  itemCount := rows.length
  fileCount := rows.countP fun m => m.payload.hasFile.getD false
  sizeBytes := (rows.map fun m => m.sizeOnDisk.getD 0).sum

section Table

variable {α : Type} (t : WarehouseTable α) (inst : String)

/-- The live rows of an instance. -/
def liveRows : List (RowKey × SoftRow α) :=
  t.selectWhere fun k r => decide (k.instanceName = inst) && !r.deleted

/-- `coalesce(sum(size_bytes), 0)` over the live rows. -/
def liveBytes (media : α → MediaCols) : Int :=
  ((liveRows t inst).map fun row => (media row.2.cols).sizeBytes.getD 0).sum

/-- The ids of the live rows of an instance. -/
def liveRowIds : List Int := (liveRows t inst).map fun row => row.1.sourceId

end Table

/-- `warehouse_integrity_counts` of a Sonarr. -/
def warehouseSonarrCounts (inst : String) (wh : Warehouse) : AuditCounts where
  itemCount := countNonDeletedRows wh.series inst
  fileCount := countNonDeletedRows wh.episodeFile inst
  sizeBytes := liveBytes wh.episodeFile inst EpisodeFileCols.media

/-- `warehouse_integrity_counts` of a Radarr. -/
def warehouseRadarrCounts (inst : String) (wh : Warehouse) : AuditCounts where
  itemCount := countNonDeletedRows wh.movie inst
  fileCount := countNonDeletedRows wh.movieFile inst
  sizeBytes := liveBytes wh.movieFile inst MovieFileCols.media

/-- `drift`. -/
def auditDrift (arr warehouse : AuditCounts) : AuditCounts where
  itemCount := arr.itemCount - warehouse.itemCount
  fileCount := arr.fileCount - warehouse.fileCount
  sizeBytes := arr.sizeBytes - warehouse.sizeBytes

/-- `drift_detected`: the bytes are no evidence, as the Arr counts extras too. -/
def driftDetected (drift : AuditCounts) : Bool :=
  decide (drift.itemCount ≠ 0) || decide (drift.fileCount ≠ 0)

/-- The audit of a Sonarr instance. -/
def auditSonarr (inst : String) (rows : List ListedSeries) (wh : Warehouse) : Bool :=
  driftDetected (auditDrift (sonarrCounts rows) (warehouseSonarrCounts inst wh))

/-- The audit of a Radarr instance. -/
def auditRadarr (inst : String) (rows : List ListedMovie) (wh : Warehouse) : Bool :=
  driftDetected (auditDrift (radarrCounts rows) (warehouseRadarrCounts inst wh))

/-! ## Counting live rows -/

section Counting

variable {α : Type} {t : WarehouseTable α} {inst : String} {ids : List Int}

/-- The live ids are those of the live rows. -/
theorem mem_liveRowIds_iff {id : Int} : id ∈ liveRowIds t inst ↔ t.isLive ⟨id, inst⟩ = true := by
  rw [liveRowIds, List.mem_map]
  constructor
  · rintro ⟨⟨⟨sourceId, name⟩, r⟩, hmem, rfl⟩
    obtain ⟨hrow, hp⟩ := KeyedTable.mem_selectWhere_iff.mp hmem
    rw [Bool.and_eq_true, decide_eq_true_iff] at hp
    obtain ⟨rfl, hlive⟩ := hp
    rw [KeyedTable.isLive, hrow]
    exact hlive
  · intro hlive
    unfold KeyedTable.isLive at hlive
    cases hrow : t.row ⟨id, inst⟩ with
    | none => simp [hrow] at hlive
    | some r =>
        have hr : r.deleted = false := by simpa [hrow] using hlive
        exact ⟨(⟨id, inst⟩, r), KeyedTable.mem_selectWhere_iff.mpr ⟨hrow, by simp [hr]⟩, rfl⟩

/-- An instance has one row for an id. -/
theorem nodup_liveRowIds : (liveRowIds t inst).Nodup := by
  have hkeys :=
    KeyedTable.nodup_selectWhere (fun k r => decide (k.instanceName = inst) && !r.deleted) t
  have hsplit : liveRowIds t inst = ((liveRows t inst).map Prod.fst).map RowKey.sourceId := by
    rw [List.map_map]
    rfl
  rw [hsplit]
  refine List.Nodup.map_on ?_ hkeys
  intro k hk k' hk' hid
  have hinst : ∀ j ∈ (liveRows t inst).map Prod.fst, j.instanceName = inst := by
    intro j hj
    obtain ⟨⟨_, r⟩, hmem, rfl⟩ := List.mem_map.mp hj
    have hp := (KeyedTable.mem_selectWhere_iff.mp hmem).2
    rw [Bool.and_eq_true, decide_eq_true_iff] at hp
    exact hp.1
  obtain ⟨id, name⟩ := k
  obtain ⟨id', name'⟩ := k'
  have hname : name = inst := hinst _ hk
  have hname' : name' = inst := hinst _ hk'
  rw [hname, hname', show id = id' from hid]

/-- The count of the query is the number of live ids. -/
theorem length_liveRowIds : (liveRowIds t inst).length = countNonDeletedRows t inst := by
  rw [liveRowIds, List.length_map, liveRows, countNonDeletedRows, KeyedTable.countLiveWhere,
    KeyedTable.countWhere]

/-- The table deviates from a list of ids to one side at most. -/
def OneSided (t : WarehouseTable α) (inst : String) (ids : List Int) : Prop :=
  (∀ id, t.isLive ⟨id, inst⟩ = true → id ∈ ids) ∨ ∀ id ∈ ids, t.isLive ⟨id, inst⟩ = true

/-- A table that holds exactly the ids deviates to neither side. -/
theorem LiveExactly.oneSided (h : LiveExactly t inst ids) : OneSided t inst ids :=
  Or.inl fun id => (h id).mp

/-- **Numbers suffice** where a table deviates to one side. -/
theorem count_eq_iff_liveExactly (hids : ids.Nodup) (hside : OneSided t inst ids) :
    (ids.length : Int) - countNonDeletedRows t inst = 0 ↔ LiveExactly t inst ids := by
  rw [← length_liveRowIds, Int.sub_eq_zero, Int.natCast_inj]
  have hexact : LiveExactly t inst ids ↔ ∀ id, id ∈ liveRowIds t inst ↔ id ∈ ids :=
    forall_congr' fun id => iff_congr mem_liveRowIds_iff.symm Iff.rfl
  rw [hexact]
  constructor
  · intro hlength
    obtain hsub | hsub := hside
    · have hperm := (List.subperm_of_subset nodup_liveRowIds
        (fun id hid => hsub id (mem_liveRowIds_iff.mp hid))).perm_of_length_le (le_of_eq hlength)
      exact fun id => hperm.mem_iff
    · have hperm := (List.subperm_of_subset hids
        (fun id hid => mem_liveRowIds_iff.mpr (hsub id hid))).perm_of_length_le
          (le_of_eq hlength.symm)
      exact fun id => hperm.mem_iff.symm
  · intro hmem
    exact ((List.perm_ext_iff_of_nodup hids nodup_liveRowIds).mpr fun id =>
      (hmem id).symm).length_eq

end Counting

/-! ## What the Arr's statistics say -/

/-- A library has one series for an id. -/
theorem SonarrLibrary.nodup_seriesIds (lib : SonarrLibrary) : lib.seriesIds.Nodup :=
  lib.series_nodup

/-- A library has one movie for an id. -/
theorem RadarrLibrary.nodup_movieIds (lib : RadarrLibrary) : lib.movieIds.Nodup := lib.movie_nodup

/-- The ids of the files of a Sonarr, each once. -/
def SonarrLibrary.fileIds (lib : SonarrLibrary) : List Int :=
  lib.series.flatMap fun row => (episodeFileIds (lib.episodes row.id)).dedup

/-- The files of a library are those that its episodes carry. -/
theorem SonarrLibrary.mem_fileIds_iff (lib : SonarrLibrary) {fid : Int} :
    fid ∈ lib.fileIds ↔
      fid ∈ episodeFileIds (lib.series.flatMap fun row => lib.episodes row.id) := by
  simp only [SonarrLibrary.fileIds, List.mem_flatMap, List.mem_dedup, mem_episodeFileIds_iff]
  constructor
  · rintro ⟨row, hrow, e, he, file, hfile⟩
    exact ⟨e, ⟨row, hrow, he⟩, file, hfile⟩
  · rintro ⟨e, ⟨row, hrow, he⟩, file, hfile⟩
    exact ⟨row, hrow, e, he, file, hfile⟩

/-- A file that two episodes share is one file. -/
theorem SonarrLibrary.nodup_fileIds (lib : SonarrLibrary) : lib.fileIds.Nodup := by
  rw [SonarrLibrary.fileIds, List.nodup_flatMap]
  refine ⟨fun row _ => List.nodup_dedup _, ?_⟩
  have hids : lib.series.Pairwise fun row row' => row.id ≠ row'.id :=
    List.pairwise_map.mp lib.series_nodup
  refine hids.imp ?_
  intro row row' hne fid hfid hfid'
  exact hne (lib.file_once row.id row'.id fid (List.mem_dedup.mp hfid) (List.mem_dedup.mp hfid'))

/-- The list of a Sonarr: with each series the number of its episodes that have a
file. -/
structure SonarrLibrary.Lists (lib : SonarrLibrary) (rows : List ListedSeries) : Prop where
  payloads : rows.map ListedSeries.payload = lib.series
  files : ∀ s ∈ rows, s.episodeFileCount.getD 0 =
    (lib.episodes s.payload.id).countP fun e => e.carriedFile.isSome

/-- No file holds two episodes. -/
def SonarrLibrary.EachFileOnce (lib : SonarrLibrary) : Prop :=
  ∀ row ∈ lib.series, (episodeFileIds (lib.episodes row.id)).Nodup

/-- The list of a Radarr that carries the file of each movie that has one. -/
structure RadarrLibrary.Lists (lib : RadarrLibrary) (rows : List ListedMovie) : Prop where
  payloads : rows.map ListedMovie.payload = lib.movies
  files : ∀ m ∈ lib.movies, m.hasFile.getD false = m.carriedFile.isSome

/-- An episode that has a file has one. -/
theorem length_episodeFileIds (episodes : List EpisodePayload) :
    (episodeFileIds episodes).length = episodes.countP fun e => e.carriedFile.isSome := by
  induction episodes with
  | nil => rfl
  | cons e rest ih =>
      rw [List.countP_cons, ← ih]
      cases hfile : e.carriedFile <;> simp [episodeFileIds, episodeFilesOf, hfile]

/-- What Sonarr counts: the file of each episode that has one. -/
theorem SonarrLibrary.Lists.fileCount {lib : SonarrLibrary} {rows : List ListedSeries}
    (h : lib.Lists rows) :
    (sonarrCounts rows).fileCount =
      (lib.series.flatMap fun row => episodeFileIds (lib.episodes row.id)).length := by
  have hsum : ∀ rest : List ListedSeries, (∀ s ∈ rest, s ∈ rows) →
      (rest.map fun s => s.episodeFileCount.getD 0).sum =
        ((rest.map ListedSeries.payload).flatMap fun row =>
          episodeFileIds (lib.episodes row.id)).length := by
    intro rest
    induction rest with
    | nil => exact fun _ => rfl
    | cons s rest ih =>
        intro hmem
        rw [List.map_cons, List.sum_cons, ih fun r hr => hmem r (List.mem_cons_of_mem s hr),
          h.files s (hmem s List.mem_cons_self), List.map_cons, List.flatMap_cons,
          List.length_append, Int.natCast_add, length_episodeFileIds]
  rw [← h.payloads]
  exact hsum rows fun _ hs => hs

/-- Both sides count the same exactly when no file holds two episodes. -/
theorem SonarrLibrary.length_fileIds_eq_iff (lib : SonarrLibrary) :
    (lib.series.flatMap fun row => episodeFileIds (lib.episodes row.id)).length =
      lib.fileIds.length ↔ lib.EachFileOnce := by
  have hall : ∀ rows : List SeriesPayload,
      (rows.flatMap fun row => (episodeFileIds (lib.episodes row.id)).dedup).length ≤
          (rows.flatMap fun row => episodeFileIds (lib.episodes row.id)).length ∧
        ((rows.flatMap fun row => episodeFileIds (lib.episodes row.id)).length =
            (rows.flatMap fun row => (episodeFileIds (lib.episodes row.id)).dedup).length ↔
          ∀ row ∈ rows, (episodeFileIds (lib.episodes row.id)).Nodup) := by
    intro rows
    induction rows with
    | nil => exact ⟨le_rfl, by simp⟩
    | cons row rest ih =>
        obtain ⟨hle, hiff⟩ := ih
        have hone := (List.dedup_sublist (episodeFileIds (lib.episodes row.id))).length_le
        have hsame : (episodeFileIds (lib.episodes row.id)).length =
            (episodeFileIds (lib.episodes row.id)).dedup.length ↔
              (episodeFileIds (lib.episodes row.id)).Nodup := by
          rw [← List.dedup_eq_self]
          constructor
          · exact fun hlength => (List.dedup_sublist _).eq_of_length hlength.symm
          · exact fun hdedup => congrArg List.length hdedup.symm
        simp only [List.flatMap_cons, List.length_append, List.forall_mem_cons, ← hsame, ← hiff]
        omega
  exact (hall lib.series).2

/-- Sonarr's list counts the series of its library. -/
theorem SonarrLibrary.Lists.itemCount {lib : SonarrLibrary} {rows : List ListedSeries}
    (h : lib.Lists rows) :
    (sonarrCounts rows).itemCount = lib.seriesIds.length := by
  rw [SonarrLibrary.seriesIds, List.length_map, ← h.payloads, List.length_map]
  rfl

/-- A movie that carries a file adds one. -/
theorem length_movieFileIds (movies : List MoviePayload) :
    (movieFileIds movies).length = movies.countP fun m => m.carriedFile.isSome := by
  induction movies with
  | nil => rfl
  | cons m rest ih =>
      rw [List.countP_cons, ← ih]
      cases hfile : m.carriedFile <;> simp [movieFileIds, movieFilesOf, hfile]

/-- No two movies of a library share a file. -/
theorem RadarrLibrary.nodup_movieFileIds (lib : RadarrLibrary) :
    (movieFileIds lib.movies).Nodup := by
  have hids : lib.movies.Pairwise fun m m' => m.id ≠ m'.id := List.pairwise_map.mp lib.movie_nodup
  rw [movieFileIds, List.Nodup, List.pairwise_map, movieFilesOf, List.pairwise_filterMap]
  refine List.Pairwise.imp_of_mem ?_ hids
  intro m m' hm hm' hne c hc c' hc' heq
  obtain ⟨⟨fid, file⟩, hfile, rfl⟩ := Option.map_eq_some_iff.mp hc
  obtain ⟨⟨fid', file'⟩, hfile', rfl⟩ := Option.map_eq_some_iff.mp hc'
  obtain rfl : fid = fid' := heq
  exact hne (lib.file_once m hm m' hm' fid file file' hfile hfile')

/-- Radarr's list counts the files of its library. -/
theorem RadarrLibrary.Lists.fileCount {lib : RadarrLibrary} {rows : List ListedMovie}
    (h : lib.Lists rows) :
    (radarrCounts rows).fileCount = (movieFileIds lib.movies).length := by
  have hpayloads : rows.countP (fun m => m.payload.hasFile.getD false) =
      lib.movies.countP fun m => m.hasFile.getD false := by
    rw [← h.payloads, List.countP_map]
    rfl
  have hcarried : lib.movies.countP (fun m => m.hasFile.getD false) =
      lib.movies.countP fun m => m.carriedFile.isSome :=
    List.countP_congr fun m hm => by rw [h.files m hm]
  rw [length_movieFileIds, ← hcarried, ← hpayloads]
  rfl

/-- Radarr's list counts the movies of its library. -/
theorem RadarrLibrary.Lists.itemCount {lib : RadarrLibrary} {rows : List ListedMovie}
    (h : lib.Lists rows) :
    (radarrCounts rows).itemCount = lib.movieIds.length := by
  rw [RadarrLibrary.movieIds, List.length_map, ← h.payloads, List.length_map]
  rfl

/-- There is no drift if the items and the files both add up; the sizes do not
enter. -/
theorem driftDetected_eq_false_iff {drift : AuditCounts} :
    driftDetected drift = false ↔ drift.itemCount = 0 ∧ drift.fileCount = 0 := by
  rw [driftDetected, Bool.or_eq_false_iff, decide_eq_false_iff_not, decide_eq_false_iff_not,
    not_not, not_not]

/-! ## What an audit finds -/

section Audits

variable {inst : String} {wh : Warehouse}

/-- **The audit is exact** where the warehouse deviates to one side in each
table and no file holds two episodes: it is silent exactly if the live rows are
those of the library. -/
theorem audit_exact :
    (∀ (lib : SonarrLibrary) (rows : List ListedSeries), lib.Lists rows → lib.EachFileOnce →
        OneSided wh.series inst lib.seriesIds → OneSided wh.episodeFile inst lib.fileIds →
          (auditSonarr inst rows wh = false ↔
            LiveExactly wh.series inst lib.seriesIds ∧
              LiveExactly wh.episodeFile inst lib.fileIds)) ∧
      ∀ (lib : RadarrLibrary) (rows : List ListedMovie), lib.Lists rows →
        OneSided wh.movie inst lib.movieIds →
        OneSided wh.movieFile inst (movieFileIds lib.movies) →
          (auditRadarr inst rows wh = false ↔
            LiveExactly wh.movie inst lib.movieIds ∧
              LiveExactly wh.movieFile inst (movieFileIds lib.movies)) := by
  constructor
  · intro lib rows hlists honce hseries hfiles
    rw [auditSonarr, driftDetected_eq_false_iff, auditDrift, hlists.itemCount, hlists.fileCount,
      lib.length_fileIds_eq_iff.mpr honce,
      ← count_eq_iff_liveExactly lib.nodup_seriesIds hseries,
      ← count_eq_iff_liveExactly lib.nodup_fileIds hfiles]
    rfl
  · intro lib rows hlists hmovies hfiles
    rw [auditRadarr, driftDetected_eq_false_iff, auditDrift, hlists.itemCount, hlists.fileCount,
      ← count_eq_iff_liveExactly lib.nodup_movieIds hmovies,
      ← count_eq_iff_liveExactly lib.nodup_movieFileIds hfiles]
    rfl

/-- **After a completed full sync** there is nothing to report of a Radarr,
whatever the warehouse was before, and of a Sonarr exactly if no file holds two
episodes. -/
theorem audit_after_full_sync {size : ℕ+} {stop : ℕ → Bool} {tag : WriteTag}
    (hstop : ∀ n, stop n = false) :
    (∀ (lib : SonarrLibrary) (client : SonarrClient) (rows : List ListedSeries),
        client.Answers lib → lib.Lists rows → lib.series ≠ [] →
          (auditSonarr inst rows (syncSonarrFullBy size client stop inst tag wh).wh = false ↔
            lib.EachFileOnce)) ∧
      ∀ (lib : RadarrLibrary) (client : RadarrClient) (rows : List ListedMovie),
        client.Answers lib → lib.Lists rows → lib.movies ≠ [] →
          auditRadarr inst rows (syncRadarrFullBy size client stop inst tag wh).wh = false := by
  constructor
  · intro lib client rows hanswers hlists hne
    obtain ⟨hseries, -, hfiles⟩ := @sonarr_completed_exact size client stop inst tag wh _ _ hstop
      hanswers.list hne fun row _ => hanswers.episodes row.id
    have hfiles' : LiveExactly (syncSonarrFullBy size client stop inst tag wh).wh.episodeFile inst
        lib.fileIds := fun fid => (hfiles fid).trans lib.mem_fileIds_iff.symm
    have hitems := (count_eq_iff_liveExactly lib.nodup_seriesIds hseries.oneSided).mpr hseries
    have hcounted := (count_eq_iff_liveExactly lib.nodup_fileIds hfiles'.oneSided).mpr hfiles'
    rw [auditSonarr, driftDetected_eq_false_iff, auditDrift, hlists.itemCount, hlists.fileCount,
      ← lib.length_fileIds_eq_iff]
    constructor
    · rintro ⟨-, hsilent⟩
      have hsilent' : ((lib.series.flatMap fun row =>
          episodeFileIds (lib.episodes row.id)).length : Int) -
            countNonDeletedRows (syncSonarrFullBy size client stop inst tag wh).wh.episodeFile
              inst = 0 := hsilent
      omega
    · intro hsame
      rw [hsame]
      exact ⟨hitems, hcounted⟩
  · intro lib client rows hanswers hlists hne
    obtain ⟨hmovies, hfiles⟩ :=
      @radarr_completed_exact size client stop inst tag wh _ hstop hanswers.list hne
    rw [auditRadarr, driftDetected_eq_false_iff, auditDrift, hlists.itemCount, hlists.fileCount]
    exact ⟨(count_eq_iff_liveExactly lib.nodup_movieIds hmovies.oneSided).mpr hmovies,
      (count_eq_iff_liveExactly lib.nodup_movieFileIds hfiles.oneSided).mpr hfiles⟩

end Audits

/-- A Radarr with one movie and its file. -/
def oneMovieRadarr : RadarrLibrary where
  movies := [{ id := 1, hasFile := some true, movieFile := some { id := some 21 } }]
  movie_nodup := by decide
  movie_id_ne_zero := by decide
  file_once := by simp

/-- And with a second movie, which has no file. -/
def twoMovieRadarr : RadarrLibrary where
  movies := [{ id := 1, hasFile := some true, movieFile := some { id := some 21 } }, { id := 2 }]
  movie_nodup := by decide
  movie_id_ne_zero := by decide
  file_once := by
    have hnone : ({ id := 2 } : MoviePayload).carriedFile = none := by decide
    simp [hnone]

/-- What Radarr lists of two movies. -/
theorem twoMovieRadarr_lists :
    twoMovieRadarr.Lists (twoMovieRadarr.movies.map fun m => { payload := m }) :=
  ⟨rfl, by decide⟩

/-- One series has one id. -/
theorem nodup_oneSeries : (([{ id := 1 }] : List SeriesPayload).map SeriesPayload.id).Nodup := by
  decide

/-- Its id can be read. -/
theorem oneSeries_id_ne_zero : ∀ row ∈ ([{ id := 1 }] : List SeriesPayload), row.id ≠ 0 := by
  decide

/-- A Sonarr with one series. -/
def oneSeriesSonarr (episodes : List EpisodePayload)
    (hepisodes : ∀ e ∈ episodes, e.seriesId = 1 ∧ e.id ≠ 0)
    (hnodup : (episodes.map EpisodePayload.id).Nodup) : SonarrLibrary where
  series := [{ id := 1 }]
  episodes := fun sid => if sid = 1 then episodes else []
  series_nodup := nodup_oneSeries
  series_id_ne_zero := oneSeries_id_ne_zero
  episodes_absent := fun sid hsid => if_neg (by simpa using hsid)
  episode_series := by
    intro sid e he
    split at he
    · next h => rw [h, (hepisodes e he).1]
    · cases he
  episode_id_ne_zero := by
    intro sid e he
    split at he
    · exact (hepisodes e he).2
    · cases he
  episode_nodup := by
    intro sid
    split
    · exact hnodup
    · exact List.nodup_nil
  episode_once := by
    intro sid sid' eid h h'
    split at h <;> split at h'
    · next h1 h2 => exact h1.trans h2.symm
    · cases h'
    · cases h
    · cases h
  file_once := by
    intro sid sid' fid h h'
    split at h <;> split at h'
    · next h1 h2 => exact h1.trans h2.symm
    · cases h'
    · cases h
    · cases h

/-- Two episodes in one file each. -/
def twoFileSonarr : SonarrLibrary :=
  oneSeriesSonarr
    [{ id := 11, seriesId := 1, episodeFile := some { id := some 21 } },
      { id := 12, seriesId := 1, episodeFile := some { id := some 22 } }] (by decide) (by decide)

/-- Two episodes in one file. -/
def doubleFileSonarr : SonarrLibrary :=
  oneSeriesSonarr
    [{ id := 11, seriesId := 1, episodeFile := some { id := some 21 } },
      { id := 12, seriesId := 1, episodeFile := some { id := some 21 } }] (by decide) (by decide)

/-- What Sonarr lists of two episodes, each with a file of its own. -/
theorem twoFileSonarr_lists :
    twoFileSonarr.Lists [{ payload := { id := 1 }, episodeFileCount := some 2 }] :=
  ⟨rfl, by decide⟩

/-- Sonarr counts two for the two episodes of one file. -/
theorem doubleFileSonarr_lists :
    doubleFileSonarr.Lists [{ payload := { id := 1 }, episodeFileCount := some 2 }] :=
  ⟨rfl, by decide⟩

/-- The first episode in a file, and the second not yet. -/
def oneFileSonarr : SonarrLibrary :=
  oneSeriesSonarr
    [{ id := 11, seriesId := 1, episodeFile := some { id := some 21 } },
      { id := 12, seriesId := 1 }] (by decide) (by decide)

/-- The warehouse of then. -/
def oneFileWarehouse : Warehouse :=
  (syncSonarrFullBy writeBatch oneFileSonarr.client (fun _ => false) "default"
    ⟨1, "full", String.toLower⟩
    Warehouse.empty).wh

/-- The warehouse before the second movie came. -/
def oneMovieWarehouse : Warehouse :=
  (syncRadarrFullBy writeBatch oneMovieRadarr.client (fun _ => false) "default"
    ⟨1, "full", String.toLower⟩
    Warehouse.empty).wh

/-- A warehouse that lacks a file of the Sonarr, and one that lacks a movie of the
Radarr. -/
theorem audit_exact_missing :
    auditSonarr "default" [{ payload := { id := 1 }, episodeFileCount := some 2 }]
        oneFileWarehouse = true ∧
      auditRadarr "default" (twoMovieRadarr.movies.map fun m => { payload := m })
        oneMovieWarehouse = true := by
  obtain ⟨hseries, -, hfiles⟩ : LiveExactly oneFileWarehouse.series "default" [1] ∧
      LiveExactly oneFileWarehouse.episode "default" [11, 12] ∧
        LiveExactly oneFileWarehouse.episodeFile "default" [21] :=
    sonarr_completed_exact (fun _ => rfl) oneFileSonarr.client_answers.list (by decide)
      fun row _ => oneFileSonarr.client_answers.episodes row.id
  obtain ⟨hmovies, hmovieFiles⟩ : LiveExactly oneMovieWarehouse.movie "default" [1] ∧
      LiveExactly oneMovieWarehouse.movieFile "default" [21] :=
    radarr_completed_exact (fun _ => rfl) oneMovieRadarr.client_answers.list (by decide)
  constructor
  · have honce : twoFileSonarr.EachFileOnce := by
      unfold SonarrLibrary.EachFileOnce
      decide
    have hside : OneSided oneFileWarehouse.episodeFile "default" twoFileSonarr.fileIds :=
      Or.inl fun id hlive => by
        obtain rfl := List.mem_singleton.mp ((hfiles id).mp hlive)
        decide
    rw [← Bool.not_eq_false,
      audit_exact.1 twoFileSonarr _ twoFileSonarr_lists honce hseries.oneSided hside]
    exact fun hexact => absurd ((hfiles 22).mp ((hexact.2 22).mpr (by decide))) (by decide)
  · have hside : OneSided oneMovieWarehouse.movie "default" twoMovieRadarr.movieIds :=
      Or.inl fun id hlive => by
        obtain rfl := List.mem_singleton.mp ((hmovies id).mp hlive)
        decide
    rw [← Bool.not_eq_false,
      audit_exact.2 twoMovieRadarr _ twoMovieRadarr_lists hside hmovieFiles.oneSided]
    exact fun hexact => absurd ((hmovies 2).mp ((hexact.1 2).mpr (by decide))) (by decide)

/-- After a full sync: the Sonarr with two files, the one with a double episode,
and the Radarr. -/
theorem audit_after_full_sync_doubleEpisode :
    auditSonarr "default" [{ payload := { id := 1 }, episodeFileCount := some 2 }]
        (syncSonarrFullBy writeBatch twoFileSonarr.client (fun _ => false) "default"
          ⟨1, "full", String.toLower⟩
          oneFileWarehouse).wh = false ∧
      auditSonarr "default" [{ payload := { id := 1 }, episodeFileCount := some 2 }]
        (syncSonarrFullBy writeBatch doubleFileSonarr.client (fun _ => false) "default"
          ⟨1, "full", String.toLower⟩
          oneFileWarehouse).wh = true ∧
      auditRadarr "default" (twoMovieRadarr.movies.map fun m => { payload := m })
        (syncRadarrFullBy writeBatch twoMovieRadarr.client (fun _ => false) "default"
          ⟨1, "full", String.toLower⟩
          oneFileWarehouse).wh = false := by
  refine ⟨?_, ?_, ?_⟩
  · refine ((audit_after_full_sync fun _ => rfl).1 twoFileSonarr _ _ twoFileSonarr.client_answers
      twoFileSonarr_lists (by decide)).mpr ?_
    unfold SonarrLibrary.EachFileOnce
    decide
  · rw [← Bool.not_eq_false, (audit_after_full_sync fun _ => rfl).1 doubleFileSonarr _ _
      doubleFileSonarr.client_answers doubleFileSonarr_lists (by decide)]
    unfold SonarrLibrary.EachFileOnce
    decide
  · exact (audit_after_full_sync fun _ => rfl).2 twoMovieRadarr _ _ twoMovieRadarr.client_answers
      twoMovieRadarr_lists (by decide)

/-! ## The audits on file -/

/-- `status` of an audit. -/
inductive AuditStatus
  | running
  | success
  | failed
deriving DecidableEq, Repr

/-- A row of `app.integrity_audit_run`, as far as the health check reads it. -/
structure AuditRun where
  source : Source
  instanceName : String
  status : AuditStatus
  startedAt : ℕ
  driftDetected : Bool
deriving DecidableEq, Repr

/-- An instance that a pass comes to: when its audit starts and what it finds;
nothing, if a call or a statement raises. -/
structure AuditVisit where
  instanceName : String
  startedAt : ℕ
  found : Option Bool

/-- The row that is left of a visit; `finish_integrity_audit_run` writes no
drift for one that failed. -/
def AuditVisit.run (source : Source) (visit : AuditVisit) : AuditRun where
  source := source
  instanceName := visit.instanceName
  status := if visit.found.isSome then .success else .failed
  startedAt := visit.startedAt
  driftDetected := visit.found.getD false

/-- `run_integrity_audit`. -/
def auditPass (source : Source) (visits : List AuditVisit) (runs : List AuditRun) : List AuditRun :=
  runs ++ visits.map (AuditVisit.run source)

/-- What `distinct on` goes by. -/
def AuditRun.key (r : AuditRun) : Source × String := (r.source, r.instanceName)

/-- The finished audits in the order of `latest_integrity_drift_sources`: of one
instance, the newest first. -/
structure NewestFirst (runs ordered : List AuditRun) : Prop where
  perm : ordered.Perm (runs.filter fun r => decide (r.status ≠ .running))
  order : ordered.Pairwise fun a b => a.key = b.key → b.startedAt ≤ a.startedAt

/-- `latest_integrity_drift_sources`, of the finished audits in their order. -/
def latestIntegrityDriftSources (ordered : List AuditRun) : List Source :=
  [Source.radarr, Source.sonarr].filter fun source =>
    (distinctOn AuditRun.key ordered).any fun r => decide (r.source = source) && r.driftDetected

/-- The newest finished audit of its instance. -/
structure IsNewest (runs : List AuditRun) (r : AuditRun) : Prop where
  mem : r ∈ runs
  finished : r.status ≠ .running
  newest : ∀ r' ∈ runs, r'.status ≠ .running → r'.key = r.key → r'.startedAt ≤ r.startedAt

/-- No two audits of an instance started at one time. -/
def DifferentTimes (runs : List AuditRun) : Prop :=
  ∀ r ∈ runs, ∀ r' ∈ runs, r.key = r'.key → r.startedAt = r'.startedAt → r = r'

section History

variable {runs ordered : List AuditRun} {r : AuditRun} {source s : Source}
  {visits : List AuditVisit}

/-- The query sees the runs that are over. -/
theorem NewestFirst.mem_iff (h : NewestFirst runs ordered) :
    r ∈ ordered ↔ r ∈ runs ∧ r.status ≠ .running := by
  rw [h.perm.mem_iff, List.mem_filter, decide_eq_true_iff]

/-- `distinct on` keeps the newest run of each source and instance. -/
theorem mem_distinctOn_iff_isNewest (h : NewestFirst runs ordered) (htimes : DifferentTimes runs) :
    r ∈ distinctOn AuditRun.key ordered ↔ IsNewest runs r := by
  have hnewest : ∀ {a}, a ∈ distinctOn AuditRun.key ordered → IsNewest runs a := by
    intro a ha
    have hmem := h.mem_iff.mp ((distinctOn_sublist AuditRun.key ordered).subset ha)
    refine ⟨hmem.1, hmem.2, fun b hb hfinished hkey => ?_⟩
    obtain rfl | hle := find?_of_pairwise h.order (find?_of_mem_distinctOn ha)
      (h.mem_iff.mpr ⟨hb, hfinished⟩) (decide_eq_true hkey)
    · exact le_rfl
    · exact hle hkey.symm
  constructor
  · exact hnewest
  · intro hr
    have hkey : r.key ∈ (distinctOn AuditRun.key ordered).map AuditRun.key :=
      mem_keys_distinctOn.mpr (List.mem_map_of_mem (h.mem_iff.mpr ⟨hr.mem, hr.finished⟩))
    obtain ⟨a, ha, hsame⟩ := List.mem_map.mp hkey
    have hkept := hnewest ha
    have htime : a.startedAt = r.startedAt :=
      le_antisymm (hr.newest a hkept.mem hkept.finished hsame)
        (hkept.newest r hr.mem hr.finished hsame.symm)
    rwa [← htimes a hkept.mem r hr.mem hsame htime]

/-- A source is listed if the newest run of one of its instances found drift. -/
theorem mem_latestIntegrityDriftSources_iff (h : NewestFirst runs ordered)
    (htimes : DifferentTimes runs) :
    s ∈ latestIntegrityDriftSources ordered ↔
      ∃ r, IsNewest runs r ∧ r.source = s ∧ r.driftDetected = true := by
  rw [latestIntegrityDriftSources, List.mem_filter, List.any_eq_true,
    and_iff_right (by cases s <;> simp)]
  refine exists_congr fun r => ?_
  rw [mem_distinctOn_iff_isNewest h htimes, Bool.and_eq_true, decide_eq_true_iff]

/-- The row of a visit is never left running. -/
theorem AuditVisit.run_finished (visit : AuditVisit) : (visit.run source).status ≠ .running := by
  unfold AuditVisit.run
  cases visit.found <;> simp

/-- The newest audits after a pass are its own, and those of the instances that
it did not come to. -/
theorem isNewest_auditPass_iff (hlater : ∀ v ∈ visits, ∀ r ∈ runs, r.startedAt < v.startedAt)
    (honce : (visits.map AuditVisit.instanceName).Nodup) :
    IsNewest (auditPass source visits runs) r ↔
      (∃ v ∈ visits, r = v.run source) ∨
        (IsNewest runs r ∧ ∀ v ∈ visits, (v.run source).key ≠ r.key) := by
  have hmem : ∀ {a}, a ∈ auditPass source visits runs ↔
      a ∈ runs ∨ ∃ v ∈ visits, a = v.run source := by
    intro a
    rw [auditPass, List.mem_append, List.mem_map]
    exact or_congr_right (exists_congr fun v => and_congr_right fun _ => eq_comm)
  constructor
  · intro hr
    obtain hold | hnew := hmem.mp hr.mem
    · refine Or.inr ⟨⟨hold, hr.finished, fun a ha => hr.newest a (hmem.mpr (Or.inl ha))⟩, ?_⟩
      intro v hv hkey
      have hle := hr.newest (v.run source) (hmem.mpr (Or.inr ⟨v, hv, rfl⟩)) v.run_finished hkey
      exact absurd (hlater v hv r hold) (Nat.not_lt.mpr hle)
    · exact Or.inl hnew
  · rintro (⟨v, hv, rfl⟩ | ⟨hr, hother⟩)
    · refine ⟨hmem.mpr (Or.inr ⟨v, hv, rfl⟩), v.run_finished, fun a ha _ hkey => ?_⟩
      obtain hold | ⟨w, hw, rfl⟩ := hmem.mp ha
      · exact (hlater v hv a hold).le
      · have hname : w.instanceName = v.instanceName := congrArg Prod.snd hkey
        exact le_of_eq (congrArg AuditVisit.startedAt (List.inj_on_of_nodup_map honce hw hv hname))
    · refine ⟨hmem.mpr (Or.inl hr.mem), hr.finished, fun a ha hfinished hkey => ?_⟩
      obtain hold | ⟨w, hw, rfl⟩ := hmem.mp ha
      · exact hr.newest a hold hfinished hkey
      · exact absurd hkey (hother w hw)

/-- **Which sources the health check reports after a pass**: the one of the
pass, if some instance of it drifts by now; and any source with an instance
that the pass did not come to, and whose last audit found drift.  An instance
whose audit failed is not reported, whatever was found before. -/
theorem driftSources_after_pass (h : NewestFirst (auditPass source visits runs) ordered)
    (htimes : DifferentTimes (auditPass source visits runs))
    (hlater : ∀ v ∈ visits, ∀ r ∈ runs, r.startedAt < v.startedAt)
    (honce : (visits.map AuditVisit.instanceName).Nodup) :
    s ∈ latestIntegrityDriftSources ordered ↔
      (s = source ∧ ∃ v ∈ visits, v.found = some true) ∨
        ∃ r, IsNewest runs r ∧ r.source = s ∧ r.driftDetected = true ∧
          (s = source → r.instanceName ∉ visits.map AuditVisit.instanceName) := by
  rw [mem_latestIntegrityDriftSources_iff h htimes]
  have hfound : ∀ v : AuditVisit, (v.run source).driftDetected = true ↔ v.found = some true := by
    intro v
    unfold AuditVisit.run
    cases v.found with
    | none => simp
    | some b => simp
  have hunvisited : ∀ r : AuditRun, (∀ v ∈ visits, (v.run source).key ≠ r.key) ↔
      (r.source = source → r.instanceName ∉ visits.map AuditVisit.instanceName) := by
    intro r
    rw [List.mem_map]
    constructor
    · rintro hother hsource ⟨v, hv, hname⟩
      exact hother v hv (Prod.ext hsource.symm hname)
    · intro hnone v hv hkey
      exact hnone (congrArg Prod.fst hkey).symm ⟨v, hv, congrArg Prod.snd hkey⟩
  constructor
  · rintro ⟨r, hr, rfl, hdrift⟩
    obtain ⟨v, hv, rfl⟩ | ⟨hold, hother⟩ := (isNewest_auditPass_iff hlater honce).mp hr
    · exact Or.inl ⟨rfl, v, hv, (hfound v).mp hdrift⟩
    · exact Or.inr ⟨r, hold, rfl, hdrift, (hunvisited r).mp hother⟩
  · rintro (⟨rfl, v, hv, hv'⟩ | ⟨r, hold, rfl, hdrift, hnone⟩)
    · exact ⟨v.run s, (isNewest_auditPass_iff hlater honce).mpr (Or.inl ⟨v, hv, rfl⟩), rfl,
        (hfound v).mpr hv'⟩
    · exact ⟨r, (isNewest_auditPass_iff hlater honce).mpr
        (Or.inr ⟨hold, (hunvisited r).mpr hnone⟩), rfl, hdrift⟩

end History

/-- An instance that drifted, and whose next audit fails. -/
theorem driftSources_after_pass_failed :
    Source.sonarr ∉ latestIntegrityDriftSources
      [⟨.sonarr, "default", .failed, 2, false⟩, ⟨.sonarr, "default", .success, 1, true⟩] := by
  have hordered : NewestFirst
      (auditPass .sonarr [⟨"default", 2, none⟩] [⟨.sonarr, "default", .success, 1, true⟩])
      [⟨.sonarr, "default", .failed, 2, false⟩, ⟨.sonarr, "default", .success, 1, true⟩] :=
    ⟨.swap _ _ _, by decide⟩
  have htimes : DifferentTimes
      (auditPass .sonarr [⟨"default", 2, none⟩] [⟨.sonarr, "default", .success, 1, true⟩]) := by
    unfold DifferentTimes
    decide
  rw [driftSources_after_pass hordered htimes (by decide) (by decide)]
  rintro (⟨-, v, hv, hfound⟩ | ⟨r, hr, -, -, hnone⟩)
  · obtain rfl := List.mem_singleton.mp hv
    cases hfound
  · obtain rfl := List.mem_singleton.mp hr.mem
    exact hnone rfl (by decide)

end Nebularr
