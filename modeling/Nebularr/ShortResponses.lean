import Nebularr.FullSync
import Nebularr.DeleteEvents

/-!
# Short answers

`list_episodes` may answer with less than Sonarr holds: without the file
objects when `includeEpisodeFile` is not supported or the retry left it out,
and with nothing when the body is no list.  A run that takes what it was not
told about for deleted flags rows whose items are still there.

A run is followed here commit by commit (`SonarrRun.trace`).  Chunk writes
and the scope refresh never flag a row, so all depends on two transactions:

* the tombstone pass of a full run flags an item exactly when no answer of the
  run carries it (`fullTrace_keeps_iff`);
* the reconcile step of an incremental chunk flags an item exactly when its
  parent was answered without it, or when it is filed under a series Sonarr
  does not have (`reconcile_keeps_iff`).
-/

namespace Nebularr

/-! ## Answers of a Sonarr that leaves things out -/

/-- An episode as Sonarr lists it when files were not asked for. -/
def EpisodePayload.withoutFile (episode : EpisodePayload) : EpisodePayload :=
  { episode with episodeFile := none }

namespace SonarrLibrary

variable (lib : SonarrLibrary)

/-- What `GET /episode` lists. -/
def listed (sid : Int) (includeEpisodeFile : Bool) : List EpisodePayload :=
  if includeEpisodeFile then lib.episodes sid
  else (lib.episodes sid).map EpisodePayload.withoutFile

end SonarrLibrary

/-- **A client that serves a library.**  Requests may fail, and an episode
request may be answered with a body that is no list; what is answered besides
is what the library holds. -/
structure SonarrClient.Serves (client : SonarrClient) (lib : SonarrLibrary) : Prop where
  list : ∀ rows, client.listSeries = .ok rows → rows = lib.series
  get : ∀ sid reply, client.getSeries sid = .ok reply → reply = (lib.find sid).elim .missing .row
  episodes : ∀ attempt sid includeEpisodeFile body,
    client.episodeRequest attempt sid includeEpisodeFile = .ok body →
      body = .items (lib.listed sid includeEpisodeFile) ∨ ∃ typeName, body = .other typeName

/-- An answer carries nothing the library lacks. -/
structure SonarrLibrary.Within (lib : SonarrLibrary) (sid : Int) (l : List EpisodePayload) :
    Prop where
  series : ∀ e ∈ l, e.seriesId = sid
  episodes : ∀ e ∈ l, e.id ∈ episodeIds (lib.episodes sid)
  files : ∀ fid ∈ episodeFileIds l, fid ∈ episodeFileIds (lib.episodes sid)

namespace SonarrLibrary

variable (lib : SonarrLibrary)

/-- What a library lists is within it. -/
theorem within_listed (sid : Int) (includeEpisodeFile : Bool) :
    lib.Within sid (lib.listed sid includeEpisodeFile) := by
  cases includeEpisodeFile with
  | true =>
      exact ⟨lib.episode_series sid, fun e he => List.mem_map_of_mem he, fun fid hfid => hfid⟩
  | false =>
      refine ⟨?_, ?_, ?_⟩
      · intro e he
        obtain ⟨row, hrow, rfl⟩ := List.mem_map.mp he
        exact lib.episode_series sid row hrow
      · intro e he
        obtain ⟨row, hrow, rfl⟩ := List.mem_map.mp he
        exact List.mem_map.mpr ⟨row, hrow, rfl⟩
      · intro fid hfid
        obtain ⟨e, he, file, hcarried⟩ := mem_episodeFileIds_iff.mp hfid
        obtain ⟨row, hrow, rfl⟩ := List.mem_map.mp he
        cases hcarried

/-- No answer is within every library. -/
theorem within_nil (sid : Int) : lib.Within sid [] where
  series := fun _ h => absurd h List.not_mem_nil
  episodes := fun _ h => absurd h List.not_mem_nil
  files := fun _ h => absurd h List.not_mem_nil

end SonarrLibrary

/-- Whatever `list_episodes` makes of the answers, it invents nothing. -/
theorem SonarrClient.Serves.within_listEpisodes {client : SonarrClient} {lib : SonarrLibrary}
    (h : client.Serves lib) {sid : Int} {l : List EpisodePayload}
    (hl : client.listEpisodes sid = .ok l) : lib.Within sid l := by
  have hbody : ∀ attempt inc body, client.episodeRequest attempt sid inc = .ok body →
      lib.Within sid (SonarrClient.episodesOf body) := by
    intro attempt inc body hreq
    rcases h.episodes attempt sid inc body hreq with rfl | hother
    · exact lib.within_listed sid inc
    · obtain ⟨typeName, rfl⟩ := hother
      exact lib.within_nil sid
  unfold SonarrClient.listEpisodes at hl
  cases hfirst : client.episodeRequest 0 sid client.supportsEpisodeIncludeFiles with
  | ok body =>
      rw [hfirst] at hl
      cases hl
      exact hbody 0 _ body hfirst
  | error e =>
      rw [hfirst] at hl
      cases hretry : client.episodeRequest 1 sid false with
      | error e' =>
          rw [hretry] at hl
          cases hl
      | ok body =>
          rw [hretry] at hl
          cases hl
          exact hbody 1 false body hretry

/-! ### A chunk of an incremental run -/

/-- The gathers of a chunk give it the shape the reconcile step relies on. -/
theorem SonarrClient.Serves.servedChunk {client : SonarrClient} {lib : SonarrLibrary}
    (h : client.Serves lib) {chunkIds : List Int} {chunk : SeriesRefetch}
    (hfetch : fetchSeriesChunk client chunkIds = .ok chunk) : ServedChunk lib chunk := by
  unfold fetchSeriesChunk at hfetch
  cases hreplies : chunkIds.mapM client.getSeries with
  | error e =>
      rw [hreplies] at hfetch
      cases hfetch
  | ok replies =>
      have hexact : replies = chunkIds.map fun sid => (lib.find sid).elim .missing .row := by
        have hall := (forall₂_of_mapM_eq_ok hreplies).imp fun sid reply hreq =>
          (h.get sid reply hreq).symm
        rw [← List.forall₂_map_left_iff] at hall
        exact (List.forall₂_eq_eq_eq ▸ hall : _ = _).symm
      rw [hreplies] at hfetch
      simp only [bind, Except.bind, hexact, presentSeries_answers, missingIds_answers] at hfetch
      cases hlists : ((chunkIds.filterMap lib.find).map fun row => (row.id, row)).mapM
          (fun answer => client.listEpisodes answer.1) with
      | error e =>
          rw [hlists] at hfetch
          cases hfetch
      | ok lists =>
          rw [hlists] at hfetch
          cases hfetch
          have hrows : (((chunkIds.filterMap lib.find).map fun row => (row.id, row)).map Prod.snd) =
              chunkIds.filterMap lib.find := by
            simp [Function.comp_def]
          have hall := forall₂_of_mapM_eq_ok hlists
          rw [List.forall₂_map_left_iff, List.forall₂_iff_zip] at hall
          rw [hrows]
          -- every pair is a series of the library with what was answered for it
          have hpair : ∀ item ∈ (chunkIds.filterMap lib.find).zip lists,
              item.1.id ∈ lib.seriesIds ∧ lib.Within item.1.id item.2 := by
            intro item hitem
            obtain ⟨sid, _, hfind⟩ := List.mem_filterMap.mp (List.of_mem_zip hitem).1
            exact ⟨List.mem_map_of_mem (lib.mem_of_find_eq_some hfind),
              h.within_listEpisodes (hall.2 hitem)⟩
          refine ⟨?_, ?_, ?_, ?_, ?_⟩
          · intro sid hsid
            obtain ⟨item, hitem, rfl⟩ := List.mem_map.mp hsid
            exact (hpair item hitem).1
          · intro sid hsid
            have hnone := (List.mem_filter.mp hsid).2
            exact lib.find_eq_none_iff.mp (by simpa using hnone)
          · intro e he
            obtain ⟨item, hitem, hmem⟩ := List.mem_flatMap.mp he
            rw [(hpair item hitem).2.series e hmem]
            exact List.mem_map.mpr ⟨item, hitem, rfl⟩
          · intro eid heid
            obtain ⟨e, he, rfl⟩ := List.mem_map.mp heid
            obtain ⟨item, hitem, hmem⟩ := List.mem_flatMap.mp he
            exact ⟨item.1.id, (hpair item hitem).2.episodes e hmem⟩
          · intro fid hfid
            obtain ⟨e, he, file, hcarried⟩ := mem_episodeFileIds_iff.mp hfid
            obtain ⟨item, hitem, hmem⟩ := List.mem_flatMap.mp he
            exact ⟨item.1.id, (hpair item hitem).2.files fid
              (mem_episodeFileIds_iff.mpr ⟨e, hmem, file, hcarried⟩)⟩

/-! ## Runs, commit by commit -/

/-- What a run is asked to do.  A reconcile run is a full run under another tag. -/
inductive RunKind
  | full
  | incremental (events : List HistoryEvent)

/-- A run over a Sonarr instance, with what Sonarr holds and answers during it. -/
structure SonarrRun where
  lib : SonarrLibrary
  client : SonarrClient
  stop : ℕ → Bool
  tag : WriteTag
  kind : RunKind

/-- The warehouses a list of chunk writes commits. -/
def writeTrace (inst : String) (tag : WriteTag) :
    List (List FetchedSeries) → WriteState SonarrSeen → List Warehouse
  | [], _ => []
  | chunk :: rest, s =>
      let written := writeSonarrChunk inst tag chunk s
      written.wh :: writeTrace inst tag rest written

/-- The warehouses a list of incremental chunks commits, two for each. -/
def ingestTrace (inst : String) (tag : WriteTag) :
    List SeriesRefetch → WriteState Unit → List Warehouse
  | [], _ => []
  | chunk :: rest, s =>
      let ingested := ingestSeriesChunk inst tag chunk s
      (writeSonarrChunk inst tag chunk.present ⟨s.wh, {}, s.records⟩).wh :: ingested.wh ::
        ingestTrace inst tag rest ingested

namespace SonarrRun

variable (inst : String) (run : SonarrRun)

/-- The warehouse a run leaves. -/
def outcome (wh : Warehouse) : Warehouse :=
  match run.kind with
  | .full => (syncSonarrFull run.client run.stop inst run.tag wh).wh
  | .incremental events =>
      (ingestSonarrHistoryChanges run.client run.stop inst run.tag events
        (refreshScopeSeries run.client inst run.tag wh)).state.wh

/-- What a full run is answered, chunk by chunk. -/
def fullAnswers (series : List SeriesPayload) : LoopExit SyncError (List (List FetchedSeries)) :=
  loopAnswers run.stop (fetchEpisodeLists run.client) 0
    (slices (fetchChunkSize run.client.maxParallelRequests) series)

/-- What an incremental run is answered, chunk by chunk. -/
def refetchAnswers (events : List HistoryEvent) : LoopExit SyncError (List SeriesRefetch) :=
  loopAnswers run.stop (fetchSeriesChunk run.client) 0
    (slices (fetchChunkSize run.client.maxParallelRequests)
      (changedIds HistoryEvent.seriesId events))

/-- The warehouses a run commits, from the one it starts from to its outcome. -/
def trace (wh : Warehouse) : List Warehouse :=
  match run.kind with
  | .full =>
      match run.client.listSeries with
      | .error _ => [wh]
      | .ok series =>
          wh :: (writeTrace inst run.tag (run.fullAnswers series).state ⟨wh, {}, 0⟩ ++
            [run.outcome inst wh])
  | .incremental events =>
      let refreshed := refreshScopeSeries run.client inst run.tag wh
      wh :: refreshed ::
        ingestTrace inst run.tag (run.refetchAnswers events).state ⟨refreshed, (), 0⟩

end SonarrRun

/-- **The trace ends in the outcome** of the run as the source computes it. -/
theorem SonarrRun.getLast?_trace (inst : String) (run : SonarrRun) (wh : Warehouse) :
    (run.trace inst wh).getLast? = some (run.outcome inst wh) := by
  have hingest : ∀ (chunks : List SeriesRefetch) (s : WriteState Unit),
      (s.wh :: ingestTrace inst run.tag chunks s).getLast? =
        some (ingestSeriesChunks inst run.tag chunks s).wh := by
    intro chunks
    induction chunks with
    | nil => exact fun _ => rfl
    | cons chunk rest ih =>
        intro s
        rw [ingestTrace, List.getLast?_cons_cons, List.getLast?_cons_cons]
        exact ih (ingestSeriesChunk inst run.tag chunk s)
  unfold trace outcome
  cases run.kind with
  | full =>
      cases hlist : run.client.listSeries with
      | error e => simp [syncSonarrFull, syncSonarrFullBy, hlist]
      | ok series =>
          simp only [← List.cons_append]
          exact List.getLast?_concat
  | incremental events =>
      simp only [List.getLast?_cons_cons]
      rw [hingest _ ⟨refreshScopeSeries run.client inst run.tag wh, (), 0⟩]
      unfold ingestSonarrHistoryChanges
      rw [chunkLoop_answers]
      rfl

/-- No live episode or file that Sonarr has is flagged on the way from `w` to
`w'`. -/
structure KeepsItems (inst : String) (lib : SonarrLibrary) (w w' : Warehouse) : Prop where
  episodes : ∀ eid, lib.HasEpisode eid → w.episode.isLive ⟨eid, inst⟩ = true →
    w'.episode.isLive ⟨eid, inst⟩ = true
  files : ∀ fid, lib.HasFile fid → w.episodeFile.isLive ⟨fid, inst⟩ = true →
    w'.episodeFile.isLive ⟨fid, inst⟩ = true

variable {inst : String} {lib : SonarrLibrary}

/-- Where no row is marked, the items are kept. -/
theorem KeepsItems.of_noneMarked {w w' : Warehouse} (h : Warehouse.NoneMarked w w') :
    KeepsItems inst lib w w' where
  episodes := fun eid _ => h.episode.live ⟨eid, inst⟩
  files := fun fid _ => h.episodeFile.live ⟨fid, inst⟩

/-! ## Full runs -/

/-- The answers of a full run that reaches its tombstones carry every episode
and every file that is live and still in Sonarr. -/
structure AnswersCover (inst : String) (lib : SonarrLibrary) (answered : List EpisodePayload)
    (wh : Warehouse) : Prop where
  episodes : ∀ eid, lib.HasEpisode eid → wh.episode.isLive ⟨eid, inst⟩ = true →
    eid ∈ episodeIds answered
  files : ∀ fid, lib.HasFile fid → wh.episodeFile.isLive ⟨fid, inst⟩ = true →
    fid ∈ episodeFileIds answered

/-- Only the last commit of a full run can flag a row. -/
theorem isChain_writeTrace_iff (inst : String) (lib : SonarrLibrary) (tag : WriteTag)
    (chunks : List (List FetchedSeries)) (w : Warehouse) (s : WriteState SonarrSeen) :
    (s.wh :: (writeTrace inst tag chunks s ++ [w])).IsChain (KeepsItems inst lib) ↔
      KeepsItems inst lib (chunks.foldl (fun s c => writeSonarrChunk inst tag c s) s).wh w := by
  induction chunks generalizing s with
  | nil => simp [writeTrace]
  | cons chunk rest ih =>
      have hwrite : KeepsItems inst lib s.wh (writeSonarrChunk inst tag chunk s).wh :=
        .of_noneMarked (writeSonarrChunk_noneMarked inst tag chunk s)
      rw [writeTrace, List.cons_append, List.isChain_cons_cons, ih, List.foldl_cons]
      exact and_iff_right hwrite

/-- **A tombstone pass keeps the items of Sonarr exactly when the run's
answers cover them.** -/
theorem sonarrTombstones_keeps_iff (tag : WriteTag) (answered : List FetchedSeries)
    (wh : Warehouse) :
    KeepsItems inst lib (writeSonarrChunk inst tag answered ⟨wh, {}, 0⟩).wh
        (sonarrTombstones inst (writeSonarrChunk inst tag answered ⟨wh, {}, 0⟩).seen
          (writeSonarrChunk inst tag answered ⟨wh, {}, 0⟩).wh) ↔
      AnswersCover inst lib (chunkEpisodes answered) wh := by
  rw [writeSonarrChunk_eq]
  constructor
  · intro h
    refine ⟨?_, ?_⟩
    · intro eid hhas hlive
      have hkept := h.episodes eid hhas (by simp [hlive])
      simpa [sonarrTombstones, hlive] using hkept
    · intro fid hhas hlive
      have hkept := h.files fid hhas (by simp [hlive])
      simpa [sonarrTombstones, hlive] using hkept
  · intro h
    refine ⟨?_, ?_⟩
    · intro eid hhas hlive
      have hanswered : eid ∈ episodeIds (chunkEpisodes answered) := by
        simp only [isLive_upsertEpisodes, decide_true, Bool.true_and, Bool.or_eq_true,
          decide_eq_true_eq] at hlive
        exact hlive.elim id (h.episodes eid hhas)
      simp [sonarrTombstones, hanswered]
    · intro fid hhas hlive
      have hanswered : fid ∈ episodeFileIds (chunkEpisodes answered) := by
        simp only [isLive_upsertEpisodeFiles, decide_true, Bool.true_and, Bool.or_eq_true,
          decide_eq_true_eq] at hlive
        exact hlive.elim id (h.files fid hhas)
      simp [sonarrTombstones, hanswered]

/-- When a full run keeps the items of Sonarr: if it reaches its tombstones,
its answers cover them. -/
def FullRunCovers (inst : String) (run : SonarrRun) (wh : Warehouse) : Prop :=
  ∀ series, run.client.listSeries = .ok series → (run.fullAnswers series).error = none →
    run.stop (run.fullAnswers series).checks = false →
      AnswersCover inst run.lib (chunkEpisodes (run.fullAnswers series).state.flatten) wh

/-- How a full run ends, given what it was answered. -/
theorem syncSonarrFull_eq {run : SonarrRun} {series : List SeriesPayload}
    (hlist : run.client.listSeries = .ok series) (wh : Warehouse) :
    let written := writeSonarrChunk inst run.tag (run.fullAnswers series).state.flatten ⟨wh, {}, 0⟩
    (syncSonarrFull run.client run.stop inst run.tag wh).wh =
      if (run.fullAnswers series).error = none ∧ run.stop (run.fullAnswers series).checks = false ∧
          ¬ (series = [] ∧ 0 < countNonDeletedRows written.wh.series inst)
      then sonarrTombstones inst written.seen written.wh else written.wh := by
  intro written
  have hbody : fetchAndWriteChunk run.client inst run.tag =
      fun chunk s => (fetchEpisodeLists run.client chunk).map
        (fun fetched => writeSonarrChunk inst run.tag fetched s) := rfl
  have hfold : (run.fullAnswers series).state.foldl
      (fun s fetched => writeSonarrChunk inst run.tag fetched s) ⟨wh, {}, 0⟩ = written :=
    foldl_writeSonarrChunk inst run.tag _ _
  unfold syncSonarrFull syncSonarrFullBy fullPass
  rw [hlist, hbody]
  simp only [chunkLoop_answers]
  rw [show loopAnswers run.stop (fetchEpisodeLists run.client) 0
    (slices (fetchChunkSize run.client.maxParallelRequests) series) = run.fullAnswers series from
      rfl,
    hfold]
  cases herror : (run.fullAnswers series).error with
  | some e => simp
  | none =>
      cases hstop : run.stop (run.fullAnswers series).checks with
      | true => simp
      | false =>
          by_cases hguard : series = [] ∧ 0 < countNonDeletedRows written.wh.series inst
          · simp [markFullSyncTombstones, hguard]
          · simp [markFullSyncTombstones, hguard]

/-- A Sonarr without series has no items. -/
theorem SonarrLibrary.not_has_of_empty {lib : SonarrLibrary} (h : lib.series = []) :
    (∀ eid, ¬ lib.HasEpisode eid) ∧ ∀ fid, ¬ lib.HasFile fid := by
  have hnone : ∀ sid, lib.episodes sid = [] := fun sid => lib.episodes_absent sid (by simp [h])
  refine ⟨fun eid hhas => ?_, fun fid hhas => ?_⟩
  · obtain ⟨sid, hmem⟩ := hhas
    simp [hnone, episodeIds] at hmem
  · obtain ⟨sid, hmem⟩ := hhas
    simp [hnone, episodeFileIds, episodeFilesOf] at hmem

/-- **A full run keeps the items of Sonarr exactly when it stops short of its
tombstones or its answers cover them.** -/
theorem fullTrace_keeps_iff {run : SonarrRun} (hserves : run.client.Serves run.lib)
    (hkind : run.kind = .full) (wh : Warehouse) :
    (run.trace inst wh).IsChain (KeepsItems inst run.lib) ↔ FullRunCovers inst run wh := by
  have houtcome : run.outcome inst wh =
      (syncSonarrFull run.client run.stop inst run.tag wh).wh := by
    simp [SonarrRun.outcome, hkind]
  simp only [SonarrRun.trace, hkind]
  cases hlist : run.client.listSeries with
  | error e => simp [FullRunCovers, hlist]
  | ok series =>
      have hlib := hserves.list series hlist
      have hcovers : FullRunCovers inst run wh ↔ ((run.fullAnswers series).error = none →
          run.stop (run.fullAnswers series).checks = false →
            AnswersCover inst run.lib
              (chunkEpisodes (run.fullAnswers series).state.flatten) wh) := by
        simp [FullRunCovers, hlist]
      have hchain := isChain_writeTrace_iff inst run.lib run.tag (run.fullAnswers series).state
        (run.outcome inst wh) ⟨wh, {}, 0⟩
      rw [hcovers, hchain, foldl_writeSonarrChunk, houtcome, syncSonarrFull_eq hlist]
      by_cases hempty : series = []
      · obtain ⟨hepisode, hfile⟩ := SonarrLibrary.not_has_of_empty (hlib.symm.trans hempty)
        refine ⟨fun _ _ _ => ⟨?_, ?_⟩, fun _ => ⟨?_, ?_⟩⟩
        · exact fun eid hhas => absurd hhas (hepisode eid)
        · exact fun fid hhas => absurd hhas (hfile fid)
        · exact fun eid hhas => absurd hhas (hepisode eid)
        · exact fun fid hhas => absurd hhas (hfile fid)
      · by_cases hreach : (run.fullAnswers series).error = none ∧
            run.stop (run.fullAnswers series).checks = false
        · rw [if_pos ⟨hreach.1, hreach.2, fun h => hempty h.1⟩, sonarrTombstones_keeps_iff]
          simp [hreach]
        · rw [if_neg fun h => hreach ⟨h.1, h.2.1⟩]
          have hsame : KeepsItems inst run.lib
              (writeSonarrChunk inst run.tag (run.fullAnswers series).state.flatten ⟨wh, {}, 0⟩).wh
              (writeSonarrChunk inst run.tag (run.fullAnswers series).state.flatten
                ⟨wh, {}, 0⟩).wh :=
            .of_noneMarked (.refl _)
          exact ⟨fun _ herror hstop => absurd ⟨herror, hstop⟩ hreach, fun _ => hsame⟩

/-! ## Incremental runs -/

/-- When a chunk of an incremental run keeps the items of Sonarr, in terms of
the warehouse before the chunk. -/
structure ChunkCovers (inst : String) (lib : SonarrLibrary) (chunk : SeriesRefetch)
    (wh : Warehouse) : Prop where
  episodes_listed : ∀ eid, lib.HasEpisode eid → wh.episode.isLive ⟨eid, inst⟩ = true →
    FiledUnder (wh.seriesOf inst eid) (chunkSeriesIds chunk.present) →
      eid ∈ episodeIds chunk.episodes
  episodes_kept : ∀ eid, lib.HasEpisode eid →
    eid ∈ episodeIds chunk.episodes ∨ wh.episode.isLive ⟨eid, inst⟩ = true →
      ¬ FiledUnder (wh.seriesOf inst eid) chunk.deleted
  files_listed : ∀ fid, lib.HasFile fid → wh.episodeFile.isLive ⟨fid, inst⟩ = true →
    FiledUnder (wh.episodeOf inst fid) (episodeIds chunk.episodes) →
      fid ∈ episodeFileIds chunk.episodes
  files_kept : ∀ fid, lib.HasFile fid →
    fid ∈ episodeFileIds chunk.episodes ∨ wh.episodeFile.isLive ⟨fid, inst⟩ = true →
      ∀ eid, wh.episodeOf inst fid = some eid →
        ¬ FiledUnder (wh.seriesOf inst eid) chunk.deleted

section Chunk

variable (tag : WriteTag) {chunk : SeriesRefetch} (s : WriteState Unit)

/-- Episodes: what the two conditions say of one of them. -/
theorem ingested_episode_iff (hchunk : ServedChunk lib chunk) (eid : Int) :
    (eid ∈ episodeIds chunk.episodes ∨ s.wh.episode.isLive ⟨eid, inst⟩ = true →
      (ingestSeriesChunk inst tag chunk s).wh.episode.isLive ⟨eid, inst⟩ = true) ↔
    (s.wh.episode.isLive ⟨eid, inst⟩ = true →
      FiledUnder (s.wh.seriesOf inst eid) (chunkSeriesIds chunk.present) →
        eid ∈ episodeIds chunk.episodes) ∧
    (eid ∈ episodeIds chunk.episodes ∨ s.wh.episode.isLive ⟨eid, inst⟩ = true →
      ¬ FiledUnder (s.wh.seriesOf inst eid) chunk.deleted) := by
  rw [isLive_episode_ingestSeriesChunk, seriesOf_ingestSeriesChunk, hchunk.filedUnder_deleted_iff]
  by_cases heid : eid ∈ episodeIds chunk.episodes
  · simp [heid]
  · rw [firstSeriesOf_of_notMem heid, Option.or_none]
    tauto

/-- Files: likewise, once no answered episode is filed under a series that
Sonarr does not have. -/
theorem ingested_file_iff (hchunk : ServedChunk lib chunk)
    (hanswered : ∀ eid ∈ episodeIds chunk.episodes,
      ¬ FiledUnder (s.wh.seriesOf inst eid) chunk.deleted) (fid : Int) :
    (fid ∈ episodeFileIds chunk.episodes ∨ s.wh.episodeFile.isLive ⟨fid, inst⟩ = true →
      (ingestSeriesChunk inst tag chunk s).wh.episodeFile.isLive ⟨fid, inst⟩ = true) ↔
    (s.wh.episodeFile.isLive ⟨fid, inst⟩ = true →
      FiledUnder (s.wh.episodeOf inst fid) (episodeIds chunk.episodes) →
        fid ∈ episodeFileIds chunk.episodes) ∧
    (fid ∈ episodeFileIds chunk.episodes ∨ s.wh.episodeFile.isLive ⟨fid, inst⟩ = true →
      ∀ eid, s.wh.episodeOf inst fid = some eid →
        ¬ FiledUnder (s.wh.seriesOf inst eid) chunk.deleted) := by
  rw [isLive_file_ingestSeriesChunk, episodeOf_ingestSeriesChunk]
  simp only [seriesOf_ingestSeriesChunk, hchunk.filedUnder_deleted_iff]
  by_cases hfid : fid ∈ episodeFileIds chunk.episodes
  · -- a file that is new to the warehouse is linked to an answered episode
    have howner : s.wh.episodeOf inst fid = none →
        ∀ eid, firstOwnerOf (episodeFilesOf chunk.episodes) fid = some eid →
          ¬ FiledUnder (s.wh.seriesOf inst eid) chunk.deleted := by
      intro _ eid hfirst
      obtain ⟨owner, howner, hlink⟩ := exists_firstOwnerOf hfid
      rw [hlink] at hfirst
      obtain rfl := Option.some.inj hfirst
      exact hanswered owner howner
    cases hlink : s.wh.episodeOf inst fid with
    | none => simpa [hfid] using howner hlink
    | some eid => simp [hfid]
  · rw [firstOwnerOf_of_notMem hfid, Option.or_none]
    tauto

/-- **A reconcile step keeps the items of Sonarr exactly when the answers of
its chunk cover what is filed under them.** -/
theorem reconcile_keeps_iff (hchunk : ServedChunk lib chunk) :
    KeepsItems inst lib (writeSonarrChunk inst tag chunk.present ⟨s.wh, {}, s.records⟩).wh
        (ingestSeriesChunk inst tag chunk s).wh ↔ ChunkCovers inst lib chunk s.wh := by
  have hepisode : ∀ eid,
      (writeSonarrChunk inst tag chunk.present ⟨s.wh, {}, s.records⟩).wh.episode.isLive
        ⟨eid, inst⟩ =
          true ↔ eid ∈ episodeIds chunk.episodes ∨ s.wh.episode.isLive ⟨eid, inst⟩ = true := by
    intro eid
    rw [writeSonarrChunk_eq]
    simp [SeriesRefetch.episodes]
  have hfile : ∀ fid,
      (writeSonarrChunk inst tag chunk.present ⟨s.wh, {}, s.records⟩).wh.episodeFile.isLive
          ⟨fid, inst⟩ = true ↔
        fid ∈ episodeFileIds chunk.episodes ∨ s.wh.episodeFile.isLive ⟨fid, inst⟩ = true := by
    intro fid
    rw [writeSonarrChunk_eq]
    simp [SeriesRefetch.episodes]
  constructor
  · intro h
    have hepisodes := fun eid hhas => (ingested_episode_iff tag s hchunk eid).mp
      (by simpa only [hepisode] using h.episodes eid hhas)
    have hanswered : ∀ eid ∈ episodeIds chunk.episodes,
        ¬ FiledUnder (s.wh.seriesOf inst eid) chunk.deleted :=
      fun eid heid => (hepisodes eid (hchunk.episodes eid heid)).2 (Or.inl heid)
    have hfiles := fun fid hhas => (ingested_file_iff tag s hchunk hanswered fid).mp
      (by simpa only [hfile] using h.files fid hhas)
    exact ⟨fun eid hhas => (hepisodes eid hhas).1, fun eid hhas => (hepisodes eid hhas).2,
      fun fid hhas => (hfiles fid hhas).1, fun fid hhas => (hfiles fid hhas).2⟩
  · intro h
    have hanswered : ∀ eid ∈ episodeIds chunk.episodes,
        ¬ FiledUnder (s.wh.seriesOf inst eid) chunk.deleted :=
      fun eid heid => h.episodes_kept eid (hchunk.episodes eid heid) (Or.inl heid)
    refine ⟨?_, ?_⟩
    · intro eid hhas
      rw [hepisode]
      exact (ingested_episode_iff tag s hchunk eid).mpr
        ⟨h.episodes_listed eid hhas, h.episodes_kept eid hhas⟩
    · intro fid hhas
      rw [hfile]
      exact (ingested_file_iff tag s hchunk hanswered fid).mpr
        ⟨h.files_listed fid hhas, h.files_kept fid hhas⟩

end Chunk

/-- The chunks of an incremental run, one after the other. -/
theorem isChain_ingestTrace_iff (tag : WriteTag) {chunks : List SeriesRefetch}
    (hserved : ∀ chunk ∈ chunks, ServedChunk lib chunk) (s : WriteState Unit) :
    (s.wh :: ingestTrace inst tag chunks s).IsChain (KeepsItems inst lib) ↔
      ∀ pre chunk post, chunks = pre ++ chunk :: post →
        ChunkCovers inst lib chunk (ingestSeriesChunks inst tag pre s).wh := by
  induction chunks generalizing s with
  | nil => simp [ingestTrace]
  | cons chunk rest ih =>
      have hwrite : KeepsItems inst lib s.wh
          (writeSonarrChunk inst tag chunk.present ⟨s.wh, {}, s.records⟩).wh :=
        .of_noneMarked (writeSonarrChunk_noneMarked inst tag chunk.present
          (⟨s.wh, {}, s.records⟩ : WriteState SonarrSeen))
      rw [ingestTrace, List.isChain_cons_cons, List.isChain_cons_cons, and_iff_right hwrite,
        reconcile_keeps_iff tag s (hserved chunk List.mem_cons_self),
        ih (fun c hc => hserved c (List.mem_cons_of_mem _ hc)), forall_split_cons_iff]
      rfl

/-- When an incremental run keeps the items of Sonarr: every chunk does, from
the warehouse it finds. -/
def IncrementalRunCovers (inst : String) (run : SonarrRun) (events : List HistoryEvent)
    (wh : Warehouse) : Prop :=
  ∀ pre chunk post, (run.refetchAnswers events).state = pre ++ chunk :: post →
    ChunkCovers inst run.lib chunk
      (ingestSeriesChunks inst run.tag pre
        ⟨refreshScopeSeries run.client inst run.tag wh, (), 0⟩).wh

/-- The scope refresh flags nothing. -/
theorem refreshScopeSeries_noneMarked (client : SonarrClient) (inst : String) (tag : WriteTag)
    (wh : Warehouse) : Warehouse.NoneMarked wh (refreshScopeSeries client inst tag wh) := by
  unfold refreshScopeSeries
  split
  · split
    · exact .refl wh
    · exact ⟨noneMarked_upsertSeriesAll .., .refl _, .refl _, .refl _, .refl _⟩
  · exact .refl wh

/-- **An incremental run** keeps the items at every commit exactly if it covers
what is on file. -/
theorem incrementalTrace_keeps_iff {run : SonarrRun} (hserves : run.client.Serves run.lib)
    {events : List HistoryEvent} (hkind : run.kind = .incremental events) (wh : Warehouse) :
    (run.trace inst wh).IsChain (KeepsItems inst run.lib) ↔
      IncrementalRunCovers inst run events wh := by
  have hserved : ∀ chunk ∈ (run.refetchAnswers events).state, ServedChunk run.lib chunk := by
    intro chunk hchunk
    obtain ⟨chunkIds, _, hfetch⟩ := mem_loopAnswers hchunk
    exact hserves.servedChunk hfetch
  have hscope : KeepsItems inst run.lib wh (refreshScopeSeries run.client inst run.tag wh) :=
    .of_noneMarked (refreshScopeSeries_noneMarked ..)
  simp only [SonarrRun.trace, hkind]
  rw [List.isChain_cons_cons, and_iff_right hscope,
    isChain_ingestTrace_iff run.tag hserved
      ⟨refreshScopeSeries run.client inst run.tag wh, (), 0⟩]
  rfl

/-! ## Sequences of runs -/

/-- When a run keeps the items of Sonarr. -/
def SonarrRun.Covers (inst : String) (run : SonarrRun) (wh : Warehouse) : Prop :=
  match run.kind with
  | .full => FullRunCovers inst run wh
  | .incremental events => IncrementalRunCovers inst run events wh

/-- The warehouse after a sequence of runs. -/
def afterRuns (inst : String) (runs : List SonarrRun) (wh : Warehouse) : Warehouse :=
  runs.foldl (fun w run => run.outcome inst w) wh

/-- **Absence from an answer is not deletion, exactly where the answers
cover.**  In a sequence of runs, none flags a live episode or file that Sonarr
has at that moment if and only if every run covers the warehouse it finds. -/
theorem short_answers_keep_items_iff (inst : String) (runs : List SonarrRun)
    (hserves : ∀ run ∈ runs, run.client.Serves run.lib) (wh : Warehouse) :
    (∀ pre run post, runs = pre ++ run :: post →
      (run.trace inst (afterRuns inst pre wh)).IsChain (KeepsItems inst run.lib)) ↔
    ∀ pre run post, runs = pre ++ run :: post → run.Covers inst (afterRuns inst pre wh) := by
  have hrun : ∀ run ∈ runs, ∀ w, (run.trace inst w).IsChain (KeepsItems inst run.lib) ↔
      run.Covers inst w := by
    intro run hmem w
    unfold SonarrRun.Covers
    cases hkind : run.kind with
    | full => exact fullTrace_keeps_iff (hserves run hmem) hkind w
    | incremental events => exact incrementalTrace_keeps_iff (hserves run hmem) hkind w
  constructor
  · intro h pre run post hsplit
    exact (hrun run (by simp [hsplit]) _).mp (h pre run post hsplit)
  · intro h pre run post hsplit
    exact (hrun run (by simp [hsplit]) _).mpr (h pre run post hsplit)

/-! ### A Sonarr that lists no files -/

/-- A client that lists files when asked to, if it knows how to ask. -/
def SonarrLibrary.listingClient (lib : SonarrLibrary) (supportsFiles : Bool) : SonarrClient :=
  { lib.client with
    supportsEpisodeIncludeFiles := supportsFiles
    episodeRequest :=
      fun _ sid includeEpisodeFile => .ok (.items (lib.listed sid includeEpisodeFile)) }

/-- A client that lists the library serves it. -/
theorem SonarrLibrary.listingClient_serves (lib : SonarrLibrary) (supportsFiles : Bool) :
    (lib.listingClient supportsFiles).Serves lib where
  list := by
    intro rows hrows
    cases hrows
    rfl
  get := by
    intro sid reply hreply
    have hanswer : lib.client.getSeries sid = .ok reply := hreply
    rw [lib.client_answers.get] at hanswer
    cases hanswer
    rfl
  episodes := by
    intro attempt sid includeEpisodeFile body hbody
    cases hbody
    exact Or.inl rfl

/-- A full run over a Sonarr that does not support `includeEpisodeFile`. -/
def fileBlindRun : SonarrRun where
  lib := oneEpisodeLibrary
  client := oneEpisodeLibrary.listingClient false
  stop := fun _ => false
  tag := ⟨1, "full", String.toLower⟩
  kind := .full

/-- The run flags file 21, which Sonarr still has. -/
theorem file_blind_run_flags_file :
    fileBlindRun.client.Serves fileBlindRun.lib ∧
      ¬ ∀ pre run post, [fileBlindRun] = pre ++ run :: post →
        (run.trace "default" (afterRuns "default" pre familyWarehouse)).IsChain
          (KeepsItems "default" run.lib) := by
  have hserves : fileBlindRun.client.Serves fileBlindRun.lib :=
    oneEpisodeLibrary.listingClient_serves false
  refine ⟨hserves, fun h => ?_⟩
  have hchain := h [] fileBlindRun [] rfl
  have hcovers := (fullTrace_keeps_iff hserves rfl familyWarehouse).mp hchain
  have hfile := (hcovers [{ id := 1 }] rfl rfl rfl).files 21
    ⟨1, mem_episodeFileIds_oneEpisode.mpr ⟨rfl, rfl⟩⟩ (by simp [familyWarehouse])
  exact absurd hfile (by decide)

/-- A full run over the Sonarr that has grown. -/
def grownRun (supportsFiles : Bool) (stop : ℕ → Bool) : SonarrRun where
  lib := grownLibrary
  client := grownLibrary.listingClient supportsFiles
  stop := stop
  tag := ⟨2, "full", String.toLower⟩
  kind := .full

/-- A run that is told everything. -/
def toldEverything : SonarrRun := grownRun true fun _ => false

/-- A run that is told of no file, but stopped before its tombstones. -/
def stoppedEarly : SonarrRun := grownRun false fun checks => decide (1 ≤ checks)

/-- The one and then the other. -/
def fullThenStopped : List SonarrRun := [toldEverything, stoppedEarly]

/-- The run that is told everything covers what is on file. -/
theorem toldEverything_covers (inst : String) (wh : Warehouse) :
    toldEverything.Covers inst wh := by
  intro series hseries _ _
  obtain rfl : grownLibrary.series = series := Except.ok.inj hseries
  have hanswered : chunkEpisodes
      (toldEverything.fullAnswers grownLibrary.series).state.flatten =
        grownLibrary.allEpisodes := by decide +kernel
  rw [hanswered]
  have hall : ∀ sid, ∀ e ∈ grownLibrary.episodes sid, e ∈ grownLibrary.allEpisodes := by
    intro sid e he
    rw [SonarrLibrary.mem_allEpisodes_iff, grownLibrary.episode_series sid e he]
    exact he
  refine ⟨?_, ?_⟩
  · rintro eid ⟨sid, heid⟩ -
    obtain ⟨e, he, rfl⟩ := List.mem_map.mp heid
    exact List.mem_map_of_mem (hall sid e he)
  · rintro fid ⟨sid, hfid⟩ -
    obtain ⟨e, he, file, hfile⟩ := mem_episodeFileIds_iff.mp hfid
    exact mem_episodeFileIds_iff.mpr ⟨e, hall sid e he, file, hfile⟩

/-- The other is stopped. -/
theorem stoppedEarly_stops :
    stoppedEarly.stop (stoppedEarly.fullAnswers grownLibrary.series).checks = true := by
  decide +kernel

/-- A full run told everything, then one that is stopped. -/
theorem full_then_stopped_keeps_items :
    (toldEverything.trace "default" laggingWarehouse).IsChain
        (KeepsItems "default" toldEverything.lib) ∧
      (stoppedEarly.trace "default" (afterRuns "default" [toldEverything] laggingWarehouse)).IsChain
        (KeepsItems "default" stoppedEarly.lib) := by
  have hkept := (short_answers_keep_items_iff "default" fullThenStopped ?_ laggingWarehouse).mpr ?_
  · exact ⟨hkept [] toldEverything [stoppedEarly] rfl, hkept [toldEverything] stoppedEarly [] rfl⟩
  · intro run hrun
    rcases List.mem_cons.mp hrun with rfl | hrun
    · exact grownLibrary.listingClient_serves true
    · obtain rfl := List.mem_singleton.mp hrun
      exact grownLibrary.listingClient_serves false
  · refine forall_split_cons_iff.mpr ⟨toldEverything_covers "default" _,
      forall_split_cons_iff.mpr ⟨?_, ?_⟩⟩
    · intro series hseries _ hstop
      obtain rfl : grownLibrary.series = series := Except.ok.inj hseries
      exact absurd hstop (by rw [stoppedEarly_stops]; decide)
    · intro pre run post hnil
      cases pre <;> cases hnil

end Nebularr
