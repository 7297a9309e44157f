import Nebularr.FullSync
import Nebularr.RefreshExact

/-!
# Parents and children

A live episode ought to hang under a live series, a live file under a live
episode, a live movie file under a live movie.  No foreign key says so; what
keeps it is how the write paths treat a family.  For the runs this module
finds the exact condition on the warehouse they meet under which they leave
the invariant (`Consistent`) standing:

* `syncSonarrFull_consistent_iff`, `syncRadarrFull_consistent_iff`: no fetched
  row is filed under a parent that is gone;
* `ingestSeriesChunk_consistent_iff`, `ingestMovieChunk_consistent_iff`:
  likewise for one chunk, which may also leave the file of a vanished episode
  behind.
-/

namespace Nebularr

/-! ## The invariant -/

/-- Every live row of a child table is filed under a live row of its parent
table. -/
def ChildrenLive {α β : Type} (parent : α → Int) (inst : String) (children : WarehouseTable α)
    (parents : WarehouseTable β) : Prop :=
  ∀ id, children.isLive ⟨id, inst⟩ = true →
    ∃ pid, parentLink parent children ⟨id, inst⟩ = some pid ∧ parents.isLive ⟨pid, inst⟩ = true

/-- The Sonarr half of the invariant. -/
structure SonarrConsistent (inst : String) (wh : Warehouse) : Prop where
  episodes : ChildrenLive EpisodeCols.seriesSourceId inst wh.episode wh.series
  files : ChildrenLive EpisodeFileCols.episodeSourceId inst wh.episodeFile wh.episode

/-- The Radarr half of the invariant. -/
def RadarrConsistent (inst : String) (wh : Warehouse) : Prop :=
  ChildrenLive MovieFileCols.movieSourceId inst wh.movieFile wh.movie

/-- **Parent and child rows are consistent.** -/
structure Consistent (inst : String) (wh : Warehouse) : Prop where
  sonarr : SonarrConsistent inst wh
  radarr : RadarrConsistent inst wh

section General

variable {α β : Type} {parent : α → Int} {inst : String}

/-- No live children, nothing to check. -/
theorem ChildrenLive.of_none {children : WarehouseTable α} (parents : WarehouseTable β)
    (h : ∀ id, children.isLive ⟨id, inst⟩ = false) : ChildrenLive parent inst children parents := by
  intro id hlive
  rw [h id] at hlive
  cases hlive

/-- A row of a consistent table that is filed somewhere is filed under a live
parent. -/
theorem ChildrenLive.parent_live {children : WarehouseTable α} {parents : WarehouseTable β}
    (h : ChildrenLive parent inst children parents) {id pid : Int}
    (hlive : children.isLive ⟨id, inst⟩ = true)
    (hlink : parentLink parent children ⟨id, inst⟩ = some pid) :
    parents.isLive ⟨pid, inst⟩ = true := by
  obtain ⟨pid', hlink', hparent⟩ := h id hlive
  rw [hlink] at hlink'
  obtain rfl := Option.some.inj hlink'
  exact hparent

/-- More live parents do no harm. -/
theorem ChildrenLive.mono {children : WarehouseTable α} {parents parents' : WarehouseTable β}
    (h : ChildrenLive parent inst children parents)
    (hmore : ∀ pid, parents.isLive ⟨pid, inst⟩ = true → parents'.isLive ⟨pid, inst⟩ = true) :
    ChildrenLive parent inst children parents' := by
  intro id hlive
  obtain ⟨pid, hlink, hparent⟩ := h id hlive
  exact ⟨pid, hlink, hmore pid hparent⟩

/-- **Exact tables.**  When both tables are live exactly as fetched and new
rows are filed under fetched parents, what matters is where the fetched
children that were on file already are filed. -/
theorem childrenLive_iff_of_liveExactly {children : WarehouseTable α} {parents : WarehouseTable β}
    {ids pids : List Int} {before new : Int → Option Int}
    (hchildren : LiveExactly children inst ids)
    (hparents : LiveExactly parents inst pids)
    (hlink : ∀ id, parentLink parent children ⟨id, inst⟩ = (before id).or (new id))
    (hnew : ∀ id ∈ ids, FiledUnder (new id) pids) :
    ChildrenLive parent inst children parents ↔
      ∀ id ∈ ids, ∀ pid, before id = some pid → pid ∈ pids := by
  constructor
  · intro h id hid pid hbefore
    have hfiled : parentLink parent children ⟨id, inst⟩ = some pid := by
      rw [hlink, hbefore, Option.some_or]
    exact (hparents pid).mp (h.parent_live ((hchildren id).mpr hid) hfiled)
  · intro h id hlive
    have hid := (hchildren id).mp hlive
    rw [hlink]
    cases hbefore : before id with
    | some pid => exact ⟨pid, rfl, (hparents pid).mpr (h id hid pid hbefore)⟩
    | none =>
        obtain ⟨pid, hpid, hfiled⟩ := hnew id hid
        exact ⟨pid, by simpa using hfiled, (hparents pid).mpr hpid⟩

end General

/-! ## Full runs -/

section Full

variable (inst : String) (tag : WriteTag) (wh : Warehouse)

/-- What a full Sonarr run needs of the links on file: they point at parents
Sonarr still has. -/
structure FullLinks (inst : String) (lib : SonarrLibrary) (wh : Warehouse) : Prop where
  episodes : ∀ eid ∈ episodeIds lib.allEpisodes, ∀ sid, wh.seriesOf inst eid = some sid →
    sid ∈ lib.seriesIds
  files : ∀ fid ∈ episodeFileIds lib.allEpisodes, ∀ eid, wh.episodeOf inst fid = some eid →
    eid ∈ episodeIds lib.allEpisodes

/-- A full run over an empty library leaves nothing live or changes nothing. -/
theorem syncSonarrFull_of_empty {client : SonarrClient} (hlist : client.listSeries = .ok []) :
    (syncSonarrFull client (fun _ => false) inst tag wh).wh = wh ∨
      (syncSonarrFull client (fun _ => false) inst tag wh).wh = sonarrTombstones inst {} wh := by
  rw [syncSonarrFull, syncSonarrFullBy, hlist]
  by_cases hlive : 0 < countNonDeletedRows wh.series inst
  · exact Or.inl (by simp [fullPass, slices_nil, chunkLoop, markFullSyncTombstones, hlive])
  · exact Or.inr (by simp [fullPass, slices_nil, chunkLoop, markFullSyncTombstones, hlive])

/-- What a full run over a library leaves live. -/
theorem syncSonarrFull_exact {client : SonarrClient} {lib : SonarrLibrary}
    (hans : client.Answers lib) (hne : lib.series ≠ []) :
    LiveExactly (syncSonarrFull client (fun _ => false) inst tag wh).wh.series inst lib.seriesIds ∧
      LiveExactly (syncSonarrFull client (fun _ => false) inst tag wh).wh.episode inst
        (episodeIds lib.allEpisodes) ∧
      LiveExactly (syncSonarrFull client (fun _ => false) inst tag wh).wh.episodeFile inst
        (episodeFileIds lib.allEpisodes) :=
  sonarr_completed_exact (fun _ => rfl) hans.list hne fun row _ => hans.episodes row.id

/-- Where a full run over a library leaves its rows filed. -/
theorem syncSonarrFull_links {client : SonarrClient} {lib : SonarrLibrary}
    (hans : client.Answers lib) (hne : lib.series ≠ []) (eid fid : Int) :
    (syncSonarrFull client (fun _ => false) inst tag wh).wh.seriesOf inst eid =
        (wh.seriesOf inst eid).or (firstSeriesOf lib.allEpisodes eid) ∧
      (syncSonarrFull client (fun _ => false) inst tag wh).wh.episodeOf inst fid =
        (wh.episodeOf inst fid).or (firstOwnerOf (episodeFilesOf lib.allEpisodes) fid) := by
  rw [syncSonarrFull, syncSonarrFullBy_completed (fun _ => rfl) hans.list hne
    fun row _ => hans.episodes row.id]
  simp only [writtenSonarr, writeSonarrChunk_eq, chunkEpisodes_fetchedLibrary]
  simp [Warehouse.seriesOf, Warehouse.episodeOf, sonarrTombstones, SonarrLibrary.allEpisodes]

/-- **A full Sonarr run leaves its tables consistent exactly when no fetched
row is filed under a parent that is gone.** -/
theorem syncSonarrFull_consistent_iff {client : SonarrClient} {lib : SonarrLibrary}
    (hans : client.Answers lib) (h : SonarrConsistent inst wh) :
    SonarrConsistent inst (syncSonarrFull client (fun _ => false) inst tag wh).wh ↔
      FullLinks inst lib wh := by
  by_cases hne : lib.series = []
  · have hnone : lib.allEpisodes = [] := by simp [SonarrLibrary.allEpisodes, hne]
    have hlinks : FullLinks inst lib wh := by
      refine ⟨?_, ?_⟩ <;> simp [hnone, episodeIds, episodeFileIds, episodeFilesOf]
    refine iff_of_true ?_ hlinks
    rcases syncSonarrFull_of_empty inst tag wh (hans.list.trans (congrArg _ hne)) with hsame | hall
    · rw [hsame]
      exact h
    · rw [hall]
      refine ⟨.of_none _ fun id => ?_, .of_none _ fun id => ?_⟩
      · simp [sonarrTombstones]
      · simp [sonarrTombstones]
  · obtain ⟨hseries, hepisodes, hfiles⟩ := syncSonarrFull_exact inst tag wh hans hne
    have hnewSeries : ∀ eid ∈ episodeIds lib.allEpisodes,
        FiledUnder (firstSeriesOf lib.allEpisodes eid) lib.seriesIds := by
      intro eid heid
      obtain ⟨row, hrow, _, hfirst⟩ := exists_firstSeriesOf heid
      rw [hfirst, filedUnder_some]
      exact lib.mem_seriesIds_of_mem_episodes (lib.mem_allEpisodes_iff.mp hrow)
    have hnewEpisode : ∀ fid ∈ episodeFileIds lib.allEpisodes,
        FiledUnder (firstOwnerOf (episodeFilesOf lib.allEpisodes) fid)
          (episodeIds lib.allEpisodes) := by
      intro fid hfid
      obtain ⟨eid, heid, hfirst⟩ := exists_firstOwnerOf hfid
      rw [hfirst, filedUnder_some]
      exact heid
    have hepisodeRows := childrenLive_iff_of_liveExactly hepisodes hseries
      (fun eid => (syncSonarrFull_links inst tag wh hans hne eid 0).1) hnewSeries
    have hfileRows := childrenLive_iff_of_liveExactly hfiles hepisodes
      (fun fid => (syncSonarrFull_links inst tag wh hans hne 0 fid).2) hnewEpisode
    constructor
    · exact fun h => ⟨hepisodeRows.mp h.episodes, hfileRows.mp h.files⟩
    · exact fun h => ⟨hepisodeRows.mpr h.episodes, hfileRows.mpr h.files⟩

/-- What a full Radarr run needs of the links on file. -/
def MovieLinks (inst : String) (lib : RadarrLibrary) (wh : Warehouse) : Prop :=
  ∀ fid ∈ movieFileIds lib.movies, ∀ mid, wh.movieOf inst fid = some mid → mid ∈ lib.movieIds

/-- A fetched movie file that is new is filed under a fetched movie. -/
theorem filedUnder_firstOwnerOf_movies {movies : List MoviePayload} {fid : Int}
    (hfid : fid ∈ movieFileIds movies) :
    FiledUnder (firstOwnerOf (movieFilesOf movies) fid) (movies.map MoviePayload.id) := by
  obtain ⟨mid, hmem, hfirst⟩ := firstOwnerOf_of_mem hfid
  exact ⟨mid, ownerIds_movieFilesOf movies hmem, hfirst⟩

/-- A full Radarr run leaves its tables consistent exactly when no fetched
file is filed under a movie that is gone. -/
theorem syncRadarrFull_consistent_iff {client : RadarrClient} {lib : RadarrLibrary}
    (hans : client.Answers lib) (h : RadarrConsistent inst wh) :
    RadarrConsistent inst (syncRadarrFull client (fun _ => false) inst tag wh).wh ↔
      MovieLinks inst lib wh := by
  by_cases hne : lib.movies = []
  · have hlinks : MovieLinks inst lib wh := by
      simp [MovieLinks, hne, movieFileIds, movieFilesOf]
    refine iff_of_true ?_ hlinks
    rw [syncRadarrFull, syncRadarrFullBy, hans.list, hne]
    by_cases hlive : 0 < countNonDeletedRows wh.movie inst
    · simpa [fullPass, slices_nil, chunkLoop, markFullSyncTombstones, hlive,
        RadarrConsistent] using h
    · have hnone : ∀ id, (radarrTombstones inst {} wh).movieFile.isLive ⟨id, inst⟩ = false := by
        intro id
        simp [radarrTombstones]
      have hconsistent : RadarrConsistent inst (radarrTombstones inst {} wh) :=
        ChildrenLive.of_none _ hnone
      simpa [fullPass, slices_nil, chunkLoop, markFullSyncTombstones, hlive, RadarrConsistent] using
        hconsistent
  · have hexact : LiveExactly (syncRadarrFull client (fun _ => false) inst tag wh).wh.movie inst
          lib.movieIds ∧
        LiveExactly (syncRadarrFull client (fun _ => false) inst tag wh).wh.movieFile inst
          (movieFileIds lib.movies) :=
      radarr_completed_exact (fun _ => rfl) hans.list hne
    have hlinks : ∀ fid,
        (syncRadarrFull client (fun _ => false) inst tag wh).wh.movieOf inst fid =
          (wh.movieOf inst fid).or (firstOwnerOf (movieFilesOf lib.movies) fid) := by
      intro fid
      rw [syncRadarrFull, syncRadarrFullBy_completed (fun _ => rfl) hans.list hne]
      simp [writtenRadarr, writeRadarrChunk_eq, Warehouse.movieOf, radarrTombstones]
    exact childrenLive_iff_of_liveExactly hexact.2 hexact.1 hlinks
      fun fid hfid => filedUnder_firstOwnerOf_movies hfid

end Full

/-! ## Incremental runs -/

section Incremental

variable {inst : String} (tag : WriteTag)

/-- What a chunk of an incremental Sonarr run needs of the warehouse it finds.
A fetched episode on file is filed under a series the chunk settles or one
that is live; a fetched file on file is filed under a fetched episode, one
whose series is gone, or a live one the chunk does not touch; and no live file
is left behind by a vanished episode. -/
structure ChunkLinks (inst : String) (chunk : SeriesRefetch) (wh : Warehouse) : Prop where
  episodes : ∀ eid ∈ episodeIds chunk.episodes, ∀ sid, wh.seriesOf inst eid = some sid →
    sid ∈ chunkSeriesIds chunk.present ∨ sid ∈ chunk.deleted ∨
      wh.series.isLive ⟨sid, inst⟩ = true
  files : ∀ fid ∈ episodeFileIds chunk.episodes, ∀ eid, wh.episodeOf inst fid = some eid →
    eid ∈ episodeIds chunk.episodes ∨ FiledUnder (wh.seriesOf inst eid) chunk.deleted ∨
      wh.episode.isLive ⟨eid, inst⟩ = true ∧
        ¬ FiledUnder (wh.seriesOf inst eid) (chunkSeriesIds chunk.present)
  no_orphans : ∀ fid, fid ∉ episodeFileIds chunk.episodes →
    wh.episodeFile.isLive ⟨fid, inst⟩ = true → ∀ eid, wh.episodeOf inst fid = some eid →
      eid ∉ episodeIds chunk.episodes →
        ¬ FiledUnder (wh.seriesOf inst eid) (chunkSeriesIds chunk.present)

variable {lib : SonarrLibrary} {chunk : SeriesRefetch} (s : WriteState Unit)

/-- An episode is live after a chunk when it was fetched, or was live under no
series that was; and its series is not gone. -/
theorem ServedChunk.isLive_episode_iff (hchunk : ServedChunk lib chunk) (eid : Int) :
    (ingestSeriesChunk inst tag chunk s).wh.episode.isLive ⟨eid, inst⟩ = true ↔
      (eid ∈ episodeIds chunk.episodes ∨ s.wh.episode.isLive ⟨eid, inst⟩ = true ∧
        ¬ FiledUnder (s.wh.seriesOf inst eid) (chunkSeriesIds chunk.present)) ∧
      ¬ FiledUnder (s.wh.seriesOf inst eid) chunk.deleted := by
  rw [isLive_episode_ingestSeriesChunk, seriesOf_ingestSeriesChunk, hchunk.filedUnder_deleted_iff]
  by_cases heid : eid ∈ episodeIds chunk.episodes
  · simp [heid]
  · rw [firstSeriesOf_of_notMem heid, Option.or_none]

/-- A file is live after a chunk when it was fetched, or was live under no
episode that was; and its episode's series is not gone. -/
theorem ServedChunk.isLive_file_iff (hchunk : ServedChunk lib chunk) (fid : Int) :
    (ingestSeriesChunk inst tag chunk s).wh.episodeFile.isLive ⟨fid, inst⟩ = true ↔
      (fid ∈ episodeFileIds chunk.episodes ∨ s.wh.episodeFile.isLive ⟨fid, inst⟩ = true ∧
        ¬ FiledUnder (s.wh.episodeOf inst fid) (episodeIds chunk.episodes)) ∧
      ∀ eid, (ingestSeriesChunk inst tag chunk s).wh.episodeOf inst fid = some eid →
        ¬ FiledUnder (s.wh.seriesOf inst eid) chunk.deleted := by
  rw [isLive_file_ingestSeriesChunk]
  simp only [seriesOf_ingestSeriesChunk, hchunk.filedUnder_deleted_iff]
  by_cases hfid : fid ∈ episodeFileIds chunk.episodes
  · simp [hfid]
  · rw [episodeOf_ingestSeriesChunk, firstOwnerOf_of_notMem hfid, Option.or_none]

/-- Episodes after a chunk. -/
theorem ingestSeriesChunk_episodes_iff (hchunk : ServedChunk lib chunk)
    (h : SonarrConsistent inst s.wh) :
    ChildrenLive EpisodeCols.seriesSourceId inst (ingestSeriesChunk inst tag chunk s).wh.episode
        (ingestSeriesChunk inst tag chunk s).wh.series ↔
      ∀ eid ∈ episodeIds chunk.episodes, ∀ sid, s.wh.seriesOf inst eid = some sid →
        sid ∈ chunkSeriesIds chunk.present ∨ sid ∈ chunk.deleted ∨
          s.wh.series.isLive ⟨sid, inst⟩ = true := by
  constructor
  · intro hafter eid heid sid hlink
    by_cases hgone : sid ∈ chunk.deleted
    · exact Or.inr (Or.inl hgone)
    · have hlink' : (ingestSeriesChunk inst tag chunk s).wh.seriesOf inst eid = some sid := by
        rw [seriesOf_ingestSeriesChunk, hlink, Option.some_or]
      have hlive : (ingestSeriesChunk inst tag chunk s).wh.episode.isLive ⟨eid, inst⟩ = true := by
        rw [isLive_episode_ingestSeriesChunk, hlink', filedUnder_some]
        exact ⟨Or.inl heid, by rwa [filedUnder_some]⟩
      have hseries := hafter.parent_live hlive hlink'
      rw [isLive_series_ingestSeriesChunk] at hseries
      exact hseries.1.elim Or.inl fun hbefore => Or.inr (Or.inr hbefore)
  · intro hcond eid hlive
    rw [isLive_episode_ingestSeriesChunk, seriesOf_ingestSeriesChunk,
      hchunk.filedUnder_deleted_iff] at hlive
    obtain ⟨hkept, hgone⟩ := hlive
    change ∃ sid, (ingestSeriesChunk inst tag chunk s).wh.seriesOf inst eid = some sid ∧ _
    rw [seriesOf_ingestSeriesChunk]
    simp only [isLive_series_ingestSeriesChunk]
    by_cases heid : eid ∈ episodeIds chunk.episodes
    · cases hlink : s.wh.seriesOf inst eid with
      | some sid =>
          rw [hlink, filedUnder_some] at hgone
          refine ⟨sid, rfl, ?_, hgone⟩
          rcases hcond eid heid sid hlink with hpresent | hdeleted | hbefore
          · exact Or.inl hpresent
          · exact absurd hdeleted hgone
          · exact Or.inr hbefore
      | none =>
          obtain ⟨row, hrow, _, hfirst⟩ := exists_firstSeriesOf heid
          have hpresent := hchunk.episode_series row hrow
          refine ⟨row.seriesId, by simpa using hfirst, Or.inl hpresent, fun hdeleted => ?_⟩
          exact hchunk.deleted _ hdeleted (hchunk.present _ hpresent)
    · rw [firstSeriesOf_of_notMem heid, Option.or_none] at hkept ⊢
      have hbefore := (hkept.resolve_left heid).1
      obtain ⟨sid, hlink, hseries⟩ := h.episodes eid hbefore
      have hlink' : s.wh.seriesOf inst eid = some sid := hlink
      rw [hlink', filedUnder_some] at hgone
      exact ⟨sid, hlink', Or.inr hseries, hgone⟩

/-- Files after a chunk. -/
theorem ingestSeriesChunk_files_iff (hchunk : ServedChunk lib chunk)
    (h : SonarrConsistent inst s.wh) :
    ChildrenLive EpisodeFileCols.episodeSourceId inst
        (ingestSeriesChunk inst tag chunk s).wh.episodeFile
        (ingestSeriesChunk inst tag chunk s).wh.episode ↔
      (∀ fid ∈ episodeFileIds chunk.episodes, ∀ eid, s.wh.episodeOf inst fid = some eid →
        eid ∈ episodeIds chunk.episodes ∨ FiledUnder (s.wh.seriesOf inst eid) chunk.deleted ∨
          s.wh.episode.isLive ⟨eid, inst⟩ = true ∧
            ¬ FiledUnder (s.wh.seriesOf inst eid) (chunkSeriesIds chunk.present)) ∧
      ∀ fid, fid ∉ episodeFileIds chunk.episodes →
        s.wh.episodeFile.isLive ⟨fid, inst⟩ = true → ∀ eid, s.wh.episodeOf inst fid = some eid →
          eid ∉ episodeIds chunk.episodes →
            ¬ FiledUnder (s.wh.seriesOf inst eid) (chunkSeriesIds chunk.present) := by
  constructor
  · intro hafter
    refine ⟨?_, ?_⟩
    · intro fid hfid eid hlink
      have hlink' : (ingestSeriesChunk inst tag chunk s).wh.episodeOf inst fid = some eid := by
        rw [episodeOf_ingestSeriesChunk, hlink, Option.some_or]
      by_cases hgone : FiledUnder (s.wh.seriesOf inst eid) chunk.deleted
      · exact Or.inr (Or.inl hgone)
      · have hlive : (ingestSeriesChunk inst tag chunk s).wh.episodeFile.isLive ⟨fid, inst⟩ =
            true := by
          rw [hchunk.isLive_file_iff, hlink']
          simp only [Option.some.injEq, forall_eq']
          exact ⟨Or.inl hfid, hgone⟩
        have hparent := hafter.parent_live hlive hlink'
        rw [hchunk.isLive_episode_iff] at hparent
        exact hparent.1.elim Or.inl fun hkept => Or.inr (Or.inr hkept)
    · intro fid hfid hbefore eid hlink heid hpresent
      have hlink' : (ingestSeriesChunk inst tag chunk s).wh.episodeOf inst fid = some eid := by
        rw [episodeOf_ingestSeriesChunk, hlink, Option.some_or]
      -- the series is present, so it is not gone and the file survives its episode
      have hgone : ¬ FiledUnder (s.wh.seriesOf inst eid) chunk.deleted := by
        intro hdeleted
        obtain ⟨sid, hsid, hseries⟩ := hpresent
        rw [hseries, filedUnder_some] at hdeleted
        exact hchunk.deleted sid hdeleted (hchunk.present sid hsid)
      have hlive : (ingestSeriesChunk inst tag chunk s).wh.episodeFile.isLive ⟨fid, inst⟩ =
          true := by
        rw [hchunk.isLive_file_iff, hlink', hlink, filedUnder_some]
        simp only [Option.some.injEq, forall_eq']
        exact ⟨Or.inr ⟨hbefore, heid⟩, hgone⟩
      have hparent := hafter.parent_live hlive hlink'
      rw [hchunk.isLive_episode_iff] at hparent
      exact (hparent.1.resolve_left heid).2 hpresent
  · intro hcond fid hlive
    rw [hchunk.isLive_file_iff] at hlive
    obtain ⟨hkept, hgone⟩ := hlive
    change ∃ eid, (ingestSeriesChunk inst tag chunk s).wh.episodeOf inst fid = some eid ∧ _
    simp only [hchunk.isLive_episode_iff]
    rw [episodeOf_ingestSeriesChunk] at hgone ⊢
    by_cases hfid : fid ∈ episodeFileIds chunk.episodes
    · cases hlink : s.wh.episodeOf inst fid with
      | some eid =>
          have hkeep := hgone eid (by rw [hlink, Option.some_or])
          refine ⟨eid, rfl, ?_, hkeep⟩
          rcases hcond.1 fid hfid eid hlink with heid | hdeleted | hbefore
          · exact Or.inl heid
          · exact absurd hdeleted hkeep
          · exact Or.inr hbefore
      | none =>
          obtain ⟨eid, heid, hfirst⟩ := exists_firstOwnerOf hfid
          exact ⟨eid, by simpa using hfirst, Or.inl heid, hgone eid (by simpa [hlink] using hfirst)⟩
    · rw [firstOwnerOf_of_notMem hfid, Option.or_none] at hgone ⊢
      obtain ⟨hbefore, hunfetched⟩ := hkept.resolve_left hfid
      obtain ⟨eid, hlink, hepisodeLive⟩ := h.files fid hbefore
      have hlink' : s.wh.episodeOf inst fid = some eid := hlink
      rw [hlink', filedUnder_some] at hunfetched
      exact ⟨eid, hlink', Or.inr ⟨hepisodeLive, hcond.2 fid hfid hbefore eid hlink' hunfetched⟩,
        hgone eid hlink'⟩

/-- **A chunk of an incremental Sonarr run leaves its tables consistent exactly
when the links it finds allow it.** -/
theorem ingestSeriesChunk_consistent_iff (hchunk : ServedChunk lib chunk)
    (h : SonarrConsistent inst s.wh) :
    SonarrConsistent inst (ingestSeriesChunk inst tag chunk s).wh ↔
      ChunkLinks inst chunk s.wh := by
  have hepisodes := ingestSeriesChunk_episodes_iff tag s hchunk h
  have hfiles := ingestSeriesChunk_files_iff tag s hchunk h
  constructor
  · intro hafter
    obtain ⟨hlinked, hnone⟩ := hfiles.mp hafter.files
    exact ⟨hepisodes.mp hafter.episodes, hlinked, hnone⟩
  · exact fun hcond =>
      ⟨hepisodes.mpr hcond.episodes, hfiles.mpr ⟨hcond.files, hcond.no_orphans⟩⟩

/-- The scope refresh leaves the tables consistent. -/
theorem refreshScopeSeries_consistent (client : SonarrClient) {wh : Warehouse}
    (h : SonarrConsistent inst wh) :
    SonarrConsistent inst (refreshScopeSeries client inst tag wh) := by
  unfold refreshScopeSeries
  split
  · split
    · exact h
    · refine ⟨h.episodes.mono fun sid hlive => ?_, h.files⟩
      simp [writeScopeSeries, hlive]
  · exact h

/-- The scope refresh of a Radarr run likewise. -/
theorem refreshScopeMovies_consistent (client : RadarrClient) {wh : Warehouse}
    (h : RadarrConsistent inst wh) :
    RadarrConsistent inst (refreshScopeMovies client inst tag wh) := by
  unfold refreshScopeMovies
  split
  · split
    · exact h
    · refine ChildrenLive.mono h fun mid hlive => ?_
      rw [writeScopeMovies, isLive_upsertMovies, hlive, Bool.or_true]
  · exact h

/-- What a chunk of an incremental Radarr run needs of the links it finds. -/
def MovieChunkLinks (inst : String) (chunk : MovieRefetch) (wh : Warehouse) : Prop :=
  ∀ fid ∈ movieFileIds chunk.present, ∀ mid, wh.movieOf inst fid = some mid →
    mid ∈ chunk.present.map MoviePayload.id ∨ mid ∈ chunk.deleted ∨
      wh.movie.isLive ⟨mid, inst⟩ = true

/-- **A chunk of an incremental Radarr run leaves its tables consistent exactly
when no fetched file is filed under a movie that was gone before.** -/
theorem ingestMovieChunk_consistent_iff {chunk : MovieRefetch}
    (hdisjoint : ∀ mid ∈ chunk.present.map MoviePayload.id, mid ∉ chunk.deleted)
    (h : RadarrConsistent inst s.wh) :
    RadarrConsistent inst (ingestMovieChunk inst tag chunk s).wh ↔
      MovieChunkLinks inst chunk s.wh := by
  constructor
  · intro hafter fid hfid mid hlink
    have hlink' : (ingestMovieChunk inst tag chunk s).wh.movieOf inst fid = some mid := by
      rw [movieOf_ingestMovieChunk, hlink, Option.some_or]
    by_cases hgone : mid ∈ chunk.deleted
    · exact Or.inr (Or.inl hgone)
    · have hlive : (ingestMovieChunk inst tag chunk s).wh.movieFile.isLive ⟨fid, inst⟩ = true := by
        rw [isLive_file_ingestMovieChunk, hlink', filedUnder_some]
        exact ⟨Or.inl hfid, by rwa [filedUnder_some]⟩
      have hmovie := ChildrenLive.parent_live hafter hlive hlink'
      rw [isLive_movie_ingestMovieChunk] at hmovie
      exact hmovie.1.elim Or.inl fun hbefore => Or.inr (Or.inr hbefore)
  · intro hcond fid hlive
    rw [isLive_file_ingestMovieChunk, movieOf_ingestMovieChunk] at hlive
    obtain ⟨hkept, hgone⟩ := hlive
    change ∃ mid, (ingestMovieChunk inst tag chunk s).wh.movieOf inst fid = some mid ∧ _
    rw [movieOf_ingestMovieChunk]
    simp only [isLive_movie_ingestMovieChunk]
    by_cases hfid : fid ∈ movieFileIds chunk.present
    · cases hlink : s.wh.movieOf inst fid with
      | some mid =>
          rw [hlink, Option.some_or, filedUnder_some] at hgone
          refine ⟨mid, rfl, ?_, hgone⟩
          rcases hcond fid hfid mid hlink with hpresent | hdeleted | hbefore
          · exact Or.inl hpresent
          · exact absurd hdeleted hgone
          · exact Or.inr hbefore
      | none =>
          obtain ⟨mid, hpresent, hfirst⟩ := filedUnder_firstOwnerOf_movies hfid
          exact ⟨mid, by simpa using hfirst, Or.inl hpresent, hdisjoint mid hpresent⟩
    · rw [firstOwnerOf_of_notMem hfid, Option.or_none] at hkept hgone ⊢
      obtain ⟨mid, hlink, hmovie⟩ := h fid (hkept.resolve_left hfid).1
      have hlink' : s.wh.movieOf inst fid = some mid := hlink
      rw [hlink', filedUnder_some] at hgone
      exact ⟨mid, hlink', Or.inr hmovie, hgone⟩

end Incremental

end Nebularr
