import Nebularr.Consistency
import Nebularr.IntegrityAudit
import Nebularr.ShowListing

/-!
# The Overview's totals and the daily snapshot

`library_totals` counts each table by itself, the listings count what they
join, `capture_library_stat_snapshot` writes a row for each instance, put
together from two grouped selects, and `warehouse_integrity_counts` counts the
rows of one instance.  Snapshot and audit always agree, and add up to the
Overview (`snapshot_agrees`); the Overview and the listings agree exactly where
every live episode is filed under a live series (`overview_agrees_iff`).
-/

namespace Nebularr

/-! ## The Overview -/

/-- The answer of `library_totals`. -/
structure LibraryTotals where
  shows : ℕ
  episodes : ℕ
  episodesOnDisk : ℕ
  episodesMissing : ℕ
  movies : ℕ
  moviesOnDisk : ℕ
  moviesMissing : ℕ
  storedBytes : Int
deriving DecidableEq, Repr

section Live

variable {α : Type} (t : WarehouseTable α)

/-- The live rows of all instances. -/
def allLive : List (RowKey × SoftRow α) := t.selectWhere fun _ row => !row.deleted

/-- `coalesce(sum(size_bytes), 0)` of the live rows. -/
def storedBytes (media : α → MediaCols) : Int :=
  (sqlSum ((allLive t).map fun row => (media row.2.cols).sizeBytes)).getD 0

end Live

/-- `library_totals`; `isAvailable` is kept outside `MoviePayload`. -/
def libraryTotals (w : Warehouse) (isAvailable : RowKey → Option Bool) (now : Int) :
    LibraryTotals where
  shows := w.series.countWhere fun _ s => !s.deleted
  episodes := w.episode.countWhere fun _ e => !e.deleted
  episodesOnDisk := w.episode.countWhere fun _ e => !e.deleted && e.cols.payload.hasFile.getD false
  episodesMissing := w.episode.countWhere fun _ e =>
    !e.deleted && e.cols.monitored && e.cols.airDate.any (· ≤ now) &&
      !e.cols.payload.hasFile.getD false
  movies := w.movie.countWhere fun _ m => !m.deleted
  moviesOnDisk := w.movie.countWhere fun _ m => !m.deleted && m.cols.payload.hasFile.getD false
  moviesMissing := w.movie.countWhere fun key m =>
    !m.deleted && m.cols.monitored && (isAvailable key).getD true &&
      !m.cols.payload.hasFile.getD false
  storedBytes :=
    storedBytes w.episodeFile EpisodeFileCols.media + storedBytes w.movieFile MovieFileCols.media

/-! ## The snapshot -/

/-- A row of `warehouse.library_stat_snapshot`. -/
structure LibraryStat where
  instanceName : String
  source : Source
  entityCount : ℕ
  fileCount : ℕ
  fileBytes : Int
deriving DecidableEq, Repr

/-- A row of the union: null where the other branch has the column. -/
structure StatPart where
  instanceName : String
  entityCount : Option ℕ
  fileCount : Option ℕ
  fileBytes : Option Int
deriving DecidableEq, Repr

section Snapshot

variable {α β : Type} (parents : WarehouseTable α) (files : WarehouseTable β)
  (media : β → MediaCols)

def instanceOf {ρ : Type} (row : RowKey × ρ) : String := row.1.instanceName

/-- The first branch of the union. -/
def entityParts : List StatPart :=
  (groupBy instanceOf List.length (allLive parents)).map fun group =>
    ⟨group.1, some group.2, none, none⟩

/-- `count(*)` and `coalesce(sum(size_bytes), 0)` of file rows. -/
def fileTotals (rows : List (RowKey × SoftRow β)) : ℕ × Int :=
  (rows.length, (sqlSum (rows.map fun row => (media row.2.cols).sizeBytes)).getD 0)

/-- The second branch. -/
def fileParts : List StatPart :=
  (groupBy instanceOf (fileTotals media) (allLive files)).map fun group =>
    ⟨group.1, none, some group.2.1, some group.2.2⟩

def statParts : List StatPart := entityParts parents ++ fileParts files media

/-- The aggregates over the parts of an instance, each `coalesce(max(…), 0)`. -/
def statTotals (parts : List StatPart) : ℕ × ℕ × Int :=
  ((sqlMax (parts.map StatPart.entityCount)).getD 0, (sqlMax (parts.map StatPart.fileCount)).getD 0,
    (sqlMax (parts.map StatPart.fileBytes)).getD 0)

/-- One `insert … select` of `capture_library_stat_snapshot`. -/
def libraryStats (source : Source) : List LibraryStat :=
  (groupBy StatPart.instanceName statTotals (statParts parents files media)).map fun group =>
    ⟨group.1, source, group.2.1, group.2.2.1, group.2.2.2⟩

end Snapshot

/-- The rows that `capture_library_stat_snapshot` inserts. -/
def captureLibraryStatSnapshot (w : Warehouse) : List LibraryStat :=
  libraryStats w.series w.episodeFile EpisodeFileCols.media .sonarr ++
    libraryStats w.movie w.movieFile MovieFileCols.media .radarr

/-- What the audit counts of an instance. -/
def warehouseCounts (w : Warehouse) (source : Source) (inst : String) : AuditCounts :=
  match source with
  | .sonarr => warehouseSonarrCounts inst w
  | .radarr => warehouseRadarrCounts inst w

def LibraryStat.counts (stat : LibraryStat) : AuditCounts :=
  ⟨stat.entityCount, stat.fileCount, stat.fileBytes⟩

/-! ## The parts of an instance -/

section Parts

variable {α β : Type} {parents : WarehouseTable α} {files : WarehouseTable β}
  {media : β → MediaCols}
  {inst : String}

/-- The rows of an instance's group are its live rows. -/
theorem groupOf_allLive (t : WarehouseTable α) :
    groupOf instanceOf (allLive t) inst = liveRows t inst := by
  have hcomm : (fun (k : RowKey) (r : SoftRow α) => decide (k.instanceName = inst) && !r.deleted) =
      fun k r => !r.deleted && decide (k.instanceName = inst) := by
    funext k r
    exact Bool.and_comm _ _
  rw [liveRows, hcomm, KeyedTable.selectWhere_and]
  rfl

/-- The number of live rows is what the count query counts. -/
theorem length_liveRows (t : WarehouseTable α) :
    (liveRows t inst).length = countNonDeletedRows t inst := rfl

/-- The totals of the live rows are their number and their bytes. -/
theorem fileTotals_liveRows :
    fileTotals media (liveRows files inst) =
      (countNonDeletedRows files inst, liveBytes files inst media) := by
  rw [fileTotals, sqlSum_getD, List.map_map]
  rfl

/-- An instance with a live row. -/
def HasLive (t : WarehouseTable α) (inst : String) : Prop :=
  ∃ row ∈ allLive t, instanceOf row = inst

instance (t : WarehouseTable α) (inst : String) : Decidable (HasLive t inst) :=
  inferInstanceAs (Decidable (∃ row ∈ allLive t, instanceOf row = inst))

/-- An instance without a live row lists none. -/
theorem liveRows_eq_nil (h : ¬ HasLive files inst) : liveRows files inst = [] := by
  rw [← groupOf_allLive, groupOf, List.filter_eq_nil_iff]
  intro row hrow heq
  exact h ⟨row, hrow, of_decide_eq_true heq⟩

/-- An instance without a live row counts 0. -/
theorem countNonDeletedRows_eq_zero (h : ¬ HasLive parents inst) :
    countNonDeletedRows parents inst = 0 := by
  rw [← length_liveRows, liveRows_eq_nil h, List.length_nil]

/-- An instance without a live row stores nothing. -/
theorem liveBytes_eq_zero (media : β → MediaCols) (h : ¬ HasLive files inst) :
    liveBytes files inst media = 0 := by
  rw [liveBytes, liveRows_eq_nil h]
  rfl

/-- The entities of an instance are one part, if it has any. -/
theorem groupOf_entityParts : groupOf StatPart.instanceName (entityParts parents) inst =
    if HasLive parents inst then [⟨inst, some (countNonDeletedRows parents inst), none, none⟩]
      else [] := by
  rw [entityParts, groupOf_map_groupBy, groupOf_allLive, length_liveRows]
  · rfl
  · intro group
    rfl

/-- The files of an instance are one part, if it has any. -/
theorem groupOf_fileParts : groupOf StatPart.instanceName (fileParts files media) inst =
    if HasLive files inst then
      [⟨inst, none, some (countNonDeletedRows files inst), some (liveBytes files inst media)⟩]
    else [] := by
  rw [fileParts, groupOf_map_groupBy, groupOf_allLive, fileTotals_liveRows]
  · rfl
  · intro group
    rfl

/-- **The maxima find the one value there is**, and the counts of the audit. -/
theorem statTotals_parts :
    statTotals (groupOf StatPart.instanceName (statParts parents files media) inst) =
    (countNonDeletedRows parents inst, countNonDeletedRows files inst,
      liveBytes files inst media) := by
  rw [statParts, groupOf_append, groupOf_entityParts, groupOf_fileParts]
  by_cases hp : HasLive parents inst
  · by_cases hf : HasLive files inst
    · rw [if_pos hp, if_pos hf]
      rfl
    · rw [if_pos hp, if_neg hf, countNonDeletedRows_eq_zero hf, liveBytes_eq_zero media hf]
      rfl
  · by_cases hf : HasLive files inst
    · rw [if_neg hp, if_pos hf, countNonDeletedRows_eq_zero hp]
      rfl
    · rw [if_neg hp, if_neg hf, countNonDeletedRows_eq_zero hp, countNonDeletedRows_eq_zero hf,
        liveBytes_eq_zero media hf]
      rfl

/-- An instance has a part if it has a live entity or a live file. -/
theorem mem_instances_statParts :
    (∃ part ∈ statParts parents files media, part.instanceName = inst) ↔
      HasLive parents inst ∨ HasLive files inst := by
  rw [← groupOf_ne_nil_iff, statParts, groupOf_append, groupOf_entityParts, groupOf_fileParts]
  by_cases hp : HasLive parents inst
  · simp [hp]
  · by_cases hf : HasLive files inst
    · simp [hp, hf]
    · simp [hp, hf]

/-- **The rows of a snapshot.**  One for each instance with a live row, with the
counts of that instance. -/
theorem mem_libraryStats_iff {source : Source} {stat : LibraryStat} :
    stat ∈ libraryStats parents files media source ↔
      stat.source = source ∧ (HasLive parents stat.instanceName ∨ HasLive files stat.instanceName) ∧
        stat.entityCount = countNonDeletedRows parents stat.instanceName ∧
          stat.fileCount = countNonDeletedRows files stat.instanceName ∧
            stat.fileBytes = liveBytes files stat.instanceName media := by
  obtain ⟨inst, from', entities, fileCount, bytes⟩ := stat
  simp only [libraryStats, List.mem_map, LibraryStat.mk.injEq]
  constructor
  · intro h
    obtain ⟨group, hgroup, hinst, hsource, hentities, hfiles, hbytes⟩ := h
    obtain ⟨hpart, htotals⟩ := mem_groupBy_iff.mp hgroup
    rw [statTotals_parts, hinst] at htotals
    rw [hinst] at hpart
    rw [htotals] at hentities hfiles hbytes
    exact ⟨hsource.symm, mem_instances_statParts.mp hpart, hentities.symm, hfiles.symm, hbytes.symm⟩
  · intro h
    obtain ⟨hsource, hlive, hentities, hfiles, hbytes⟩ := h
    refine ⟨(inst, countNonDeletedRows parents inst, countNonDeletedRows files inst,
      liveBytes files inst media), mem_groupBy_iff.mpr ⟨?_, statTotals_parts.symm⟩, rfl,
        hsource.symm,
      hentities.symm, hfiles.symm, hbytes.symm⟩
    exact mem_instances_statParts.mpr hlive

/-- An instance has one row of the statistics. -/
theorem instances_libraryStats (source : Source) :
    ((libraryStats parents files media source).map LibraryStat.instanceName).Nodup := by
  have hkeys : (libraryStats parents files media source).map LibraryStat.instanceName =
      (groupBy StatPart.instanceName statTotals (statParts parents files media)).map Prod.fst := by
    rw [libraryStats, List.map_map]
    rfl
  rw [hkeys]
  exact nodup_keys_groupBy

/-- Every live row is in the group of a row of the snapshot. -/
theorem instanceOf_mem_libraryStats (media : β → MediaCols) (source : Source)
    (h : HasLive parents inst ∨ HasLive files inst) :
    inst ∈ (libraryStats parents files media source).map LibraryStat.instanceName :=
  List.mem_map.mpr ⟨⟨inst, source, countNonDeletedRows parents inst, countNonDeletedRows files inst,
    liveBytes files inst media⟩, mem_libraryStats_iff.mpr ⟨rfl, h, rfl, rfl, rfl⟩, rfl⟩

/-- Where a snapshot has no row there is nothing to count. -/
theorem counts_of_unlisted {source : Source}
    (h : ∀ stat ∈ libraryStats parents files media source, stat.instanceName ≠ inst) :
    countNonDeletedRows parents inst = 0 ∧ countNonDeletedRows files inst = 0 ∧
      liveBytes files inst media = 0 := by
  have hnone : ¬ (HasLive parents inst ∨ HasLive files inst) := by
    intro hlive
    obtain ⟨stat, hstat, hinst⟩ := List.mem_map.mp (instanceOf_mem_libraryStats media source hlive)
    exact h stat hstat hinst
  rw [not_or] at hnone
  exact ⟨countNonDeletedRows_eq_zero hnone.1, countNonDeletedRows_eq_zero hnone.2,
    liveBytes_eq_zero media hnone.2⟩

/-- The rows of a source are told apart by their instances. -/
theorem keys_libraryStats (source : Source) :
    (libraryStats parents files media source).map (fun stat => (stat.source, stat.instanceName)) =
      ((libraryStats parents files media source).map LibraryStat.instanceName).map (source, ·) := by
  rw [List.map_map]
  refine List.map_congr_left fun stat hstat => ?_
  rw [(mem_libraryStats_iff.mp hstat).1]
  rfl

/-- What a column counts of each instance adds up to what it counts of all. -/
theorem sum_libraryStats {γ M : Type} [AddCommMonoid M] {t : WarehouseTable γ} {source : Source}
    {column : LibraryStat → M} {weight : RowKey × SoftRow γ → M}
    (hlive : ∀ inst, HasLive t inst → HasLive parents inst ∨ HasLive files inst)
    (hcolumn : ∀ stat ∈ libraryStats parents files media source,
      column stat = ((liveRows t stat.instanceName).map weight).sum) :
    ((libraryStats parents files media source).map column).sum = ((allLive t).map weight).sum := by
  have hsame : (libraryStats parents files media source).map column =
      ((libraryStats parents files media source).map LibraryStat.instanceName).map fun inst =>
        ((groupOf instanceOf (allLive t) inst).map weight).sum := by
    rw [List.map_map]
    refine List.map_congr_left fun stat hstat => ?_
    rw [hcolumn stat hstat, Function.comp_apply, groupOf_allLive]
  rw [hsame]
  refine sum_groupOf (instances_libraryStats source) (fun row hrow => ?_) weight
  exact instanceOf_mem_libraryStats media source (hlive _ ⟨row, hrow, rfl⟩)

/-- The entities of the rows add up to the live ones. -/
theorem sum_entityCount (source : Source) :
    ((libraryStats parents files media source).map LibraryStat.entityCount).sum =
      parents.countWhere fun _ row => !row.deleted := by
  have hsum : ((libraryStats parents files media source).map LibraryStat.entityCount).sum =
      ((allLive parents).map fun _ => 1).sum := by
    refine sum_libraryStats (fun _ => Or.inl) fun stat hstat => ?_
    rw [(mem_libraryStats_iff.mp hstat).2.2.1, ← length_liveRows]
    simp
  rw [hsum]
  simp [allLive, KeyedTable.countWhere]

/-- The bytes of the rows add up to those stored. -/
theorem sum_fileBytes (source : Source) :
    ((libraryStats parents files media source).map LibraryStat.fileBytes).sum =
      storedBytes files media := by
  rw [storedBytes, sqlSum_getD, List.map_map]
  refine sum_libraryStats (fun _ => Or.inr) fun stat hstat => ?_
  rw [(mem_libraryStats_iff.mp hstat).2.2.2.2]
  rfl

end Parts

section Agreement

variable {w : Warehouse}

/-- The rows of the two sources. -/
theorem mem_snapshot_iff {stat : LibraryStat} : stat ∈ captureLibraryStatSnapshot w ↔
    stat ∈ libraryStats w.series w.episodeFile EpisodeFileCols.media .sonarr ∨
      stat ∈ libraryStats w.movie w.movieFile MovieFileCols.media .radarr :=
  List.mem_append

/-- **A row of the snapshot** has the counts of its instance. -/
theorem counts_snapshot {stat : LibraryStat} (h : stat ∈ captureLibraryStatSnapshot w) :
    stat.counts = warehouseCounts w stat.source stat.instanceName := by
  rcases mem_snapshot_iff.mp h with hsonarr | hradarr
  · obtain ⟨hsource, -, hentities, hfiles, hbytes⟩ := mem_libraryStats_iff.mp hsonarr
    rw [LibraryStat.counts, hsource, hentities, hfiles, hbytes]
    rfl
  · obtain ⟨hsource, -, hentities, hfiles, hbytes⟩ := mem_libraryStats_iff.mp hradarr
    rw [LibraryStat.counts, hsource, hentities, hfiles, hbytes]
    rfl

/-- The snapshot has one row for an instance. -/
theorem nodup_snapshot (w : Warehouse) :
    ((captureLibraryStatSnapshot w).map fun stat => (stat.source, stat.instanceName)).Nodup := by
  rw [captureLibraryStatSnapshot, List.map_append, keys_libraryStats, keys_libraryStats,
    List.nodup_append']
  refine ⟨(instances_libraryStats _).map fun a b h => (Prod.mk.inj h).2,
    (instances_libraryStats _).map fun a b h => (Prod.mk.inj h).2, ?_⟩
  intro pair hsonarr hradarr
  obtain ⟨a, -, ha⟩ := List.mem_map.mp hsonarr
  obtain ⟨b, -, hb⟩ := List.mem_map.mp hradarr
  rw [← ha] at hb
  cases (Prod.mk.inj hb).1

/-- An instance without a row of the snapshot has nothing. -/
theorem warehouseCounts_of_unlisted {source : Source} {inst : String}
    (h : ∀ stat ∈ captureLibraryStatSnapshot w, (stat.source, stat.instanceName) ≠ (source, inst)) :
    warehouseCounts w source inst = ⟨0, 0, 0⟩ := by
  cases source with
  | sonarr =>
      have hunlisted : ∀ stat ∈ libraryStats w.series w.episodeFile EpisodeFileCols.media .sonarr,
          stat.instanceName ≠ inst := by
        intro stat hstat hinst
        refine h stat (mem_snapshot_iff.mpr (Or.inl hstat)) ?_
        rw [(mem_libraryStats_iff.mp hstat).1, hinst]
      obtain ⟨hitems, hfiles, hbytes⟩ := counts_of_unlisted hunlisted
      simp only [warehouseCounts, warehouseSonarrCounts, hitems, hfiles, hbytes]
      rfl
  | radarr =>
      have hunlisted : ∀ stat ∈ libraryStats w.movie w.movieFile MovieFileCols.media .radarr,
          stat.instanceName ≠ inst := by
        intro stat hstat hinst
        refine h stat (mem_snapshot_iff.mpr (Or.inr hstat)) ?_
        rw [(mem_libraryStats_iff.mp hstat).1, hinst]
      obtain ⟨hitems, hfiles, hbytes⟩ := counts_of_unlisted hunlisted
      simp only [warehouseCounts, warehouseRadarrCounts, hitems, hfiles, hbytes]
      rfl

end Agreement

/-- **Snapshot, audit and Overview agree.**  A snapshot has one row at most for
each instance and source, with what an audit counts there; where it has none
there is nothing to count; and its rows add up to the Overview's totals. -/
theorem snapshot_agrees (w : Warehouse) (isAvailable : RowKey → Option Bool) (now : Int) :
    ((captureLibraryStatSnapshot w).map fun stat => (stat.source, stat.instanceName)).Nodup ∧
      (∀ stat ∈ captureLibraryStatSnapshot w,
        stat.counts = warehouseCounts w stat.source stat.instanceName) ∧
      (∀ source inst,
        (∀ stat ∈ captureLibraryStatSnapshot w, (stat.source, stat.instanceName) ≠ (source, inst)) →
          warehouseCounts w source inst = ⟨0, 0, 0⟩) ∧
      ((captureLibraryStatSnapshot w).map LibraryStat.entityCount).sum =
        (libraryTotals w isAvailable now).shows + (libraryTotals w isAvailable now).movies ∧
      ((captureLibraryStatSnapshot w).map LibraryStat.fileBytes).sum =
        (libraryTotals w isAvailable now).storedBytes := by
  refine ⟨?_, fun stat hstat => ?_, fun source inst hnone => ?_, ?_, ?_⟩
  · exact nodup_snapshot w
  · exact counts_snapshot hstat
  · exact warehouseCounts_of_unlisted hnone
  · rw [captureLibraryStatSnapshot, List.map_append, List.sum_append, sum_entityCount,
      sum_entityCount]
    rfl
  · rw [captureLibraryStatSnapshot, List.map_append, List.sum_append, sum_fileBytes, sum_fileBytes]
    rfl

/-! ## The listings -/

/-- A live episode without a live series. -/
def orphaned (w : Warehouse) (key : RowKey) (e : SoftRow EpisodeCols) : Bool :=
  !e.deleted && !w.series.isLive ⟨e.cols.seriesSourceId, key.instanceName⟩

section Listings

variable {pg : TextRules} {w : Warehouse}

/-- The empty text is stripped. -/
theorem strip_empty : strip "" = "" := by decide +kernel

/-- No episode is orphaned if every live one has its series live. -/
theorem orphaned_eq_zero_iff : w.episode.countWhere (orphaned w) = 0 ↔
    ∀ inst, ChildrenLive EpisodeCols.seriesSourceId inst w.episode w.series := by
  rw [← Nat.le_zero, ← Nat.not_lt, KeyedTable.countWhere_pos_iff]
  constructor
  · intro hnone inst id hlive
    obtain ⟨e, hrow, hnot⟩ : ∃ e, w.episode.row ⟨id, inst⟩ = some e ∧ (!e.deleted) = true := by
      simpa [KeyedTable.isLive, Option.any_eq_true] using hlive
    refine ⟨e.cols.seriesSourceId, by simp [parentLink, KeyedTable.cols, hrow], ?_⟩
    apply Classical.byContradiction
    intro hparent
    refine hnone ⟨⟨id, inst⟩, e, hrow, ?_⟩
    rw [orphaned, hnot, Bool.eq_false_of_not_eq_true hparent]
    rfl
  · intro hall h
    obtain ⟨⟨id, inst⟩, e, hrow, horphan⟩ := h
    obtain ⟨hnot, hparent⟩ := Bool.and_eq_true_iff.mp horphan
    have hlive : w.episode.isLive ⟨id, inst⟩ = true := by simpa [KeyedTable.isLive, hrow] using hnot
    have hlink : parentLink EpisodeCols.seriesSourceId w.episode ⟨id, inst⟩ =
        some e.cols.seriesSourceId := by
      simp [parentLink, KeyedTable.cols, hrow]
    rw [(hall inst).parent_live hlive hlink] at hparent
    cases hparent

/-- The live episodes are those that the listing has and the orphaned ones. -/
theorem liveEpisodes_eq (request : ListingRequest) (hsearch : strip request.search = "")
    (hinst : strip request.instanceName = "") (answer : List EpisodeRow) (limit offset : Int) :
    (w.episode.countWhere fun _ e => !e.deleted) =
      (queryAllEpisodes pg w request answer limit offset).total +
        w.episode.countWhere (orphaned w) := by
  have htotal : (queryAllEpisodes pg w request answer limit offset).total =
      w.episode.countWhere fun key e =>
        !e.deleted && w.series.isLive ⟨e.cols.seriesSourceId, key.instanceName⟩ := by
    simp only [queryAllEpisodes, pagedResponse, isSome_listedSeries_of_empty hsearch hinst]
  rw [htotal, KeyedTable.countWhere, KeyedTable.countWhere, KeyedTable.selectWhere_and,
    KeyedTable.countWhere]
  have horphaned : w.episode.selectWhere (orphaned w) =
      (w.episode.selectWhere fun _ e => !e.deleted).filter fun e =>
        !w.series.isLive ⟨e.2.cols.seriesSourceId, e.1.instanceName⟩ :=
    KeyedTable.selectWhere_and (fun _ (e : SoftRow EpisodeCols) => !e.deleted)
      (fun (key : RowKey) (e : SoftRow EpisodeCols) =>
        !w.series.isLive ⟨e.cols.seriesSourceId, key.instanceName⟩) w.episode
  rw [horphaned]
  exact List.length_eq_length_filter_add _

end Listings

/-- **Overview and listings agree** on shows and movies always, and on episodes
exactly where every live episode is filed under a live series. -/
theorem overview_agrees_iff (pg : TextRules) (w : Warehouse) (isAvailable : RowKey → Option Bool)
    (now : Int)
    (sortBy sortDir : String) :
    (∀ answer limit offset, (libraryTotals w isAvailable now).shows =
        (queryShows pg w { sortBy := sortBy, sortDir := sortDir } answer limit offset).total) ∧
      (∀ answer limit offset, (libraryTotals w isAvailable now).movies =
        (queryMovies pg w { sortBy := sortBy, sortDir := sortDir } answer limit offset).total) ∧
      ∀ answer limit offset, (libraryTotals w isAvailable now).episodes =
          (queryAllEpisodes pg w { sortBy := sortBy, sortDir := sortDir } answer limit
            offset).total ↔
        ∀ inst, ChildrenLive EpisodeCols.seriesSourceId inst w.episode w.series := by
  have hsearch : ∀ titles, searchListed pg "" titles = true := searchListed_of_empty strip_empty
  have hinst : ∀ inst, instanceListed (strip "") inst = true := instanceListed_of_empty strip_empty
  refine ⟨fun answer limit offset => ?_,
    fun answer limit offset => ?_, fun answer limit offset => ?_⟩
  · simp only [libraryTotals, queryShows, pagedResponse, showListed, hsearch, Bool.and_true]
  · simp only [libraryTotals, queryMovies, pagedResponse]
    congr 1
    funext key m
    simp only [movieListed, hsearch, hinst, Bool.and_true]
  · have hsplit : (w.episode.countWhere fun _ e => !e.deleted) =
        (queryAllEpisodes pg w { sortBy := sortBy, sortDir := sortDir } answer limit offset).total +
          w.episode.countWhere (orphaned w) :=
      liveEpisodes_eq { sortBy := sortBy, sortDir := sortDir } strip_empty strip_empty answer limit
        offset
    rw [← orphaned_eq_zero_iff]
    simp only [libraryTotals]
    omega

end Nebularr
