import Nebularr.RefreshExact
import Nebularr.WebhookJobs

/-!
# Delete events against a refetch

A webhook delete event is processed from its payload alone.  The reference
for it is the other path that maintains the same flags: the incremental
refresh of the named series or movie, fed by what Arr holds after the event.

Starting from a warehouse that mirrors Arr, the refresh is exact
(`refreshCondition_of_mirrors`), so its flags are membership in the library
after the event.  The webhook path touches only part of the family, and the
two agree exactly when the part it leaves out is not live.
-/

namespace Nebularr

/-! ## Arr after an event -/

namespace SonarrLibrary

/-- The library after a series was deleted. -/
def withoutSeries (lib : SonarrLibrary) (sid : Int) : SonarrLibrary where
  series := lib.series.filter fun row => row.id ≠ sid
  episodes := fun s => if s = sid then [] else lib.episodes s
  series_nodup := lib.series_nodup.sublist (List.filter_sublist.map _)
  series_id_ne_zero := fun row hrow => lib.series_id_ne_zero row (List.mem_of_mem_filter hrow)
  episodes_absent := by
    intro s hs
    split
    · rfl
    · next hne =>
        apply lib.episodes_absent
        intro hmem
        obtain ⟨row, hrow, hid⟩ := List.mem_map.mp hmem
        exact hs (List.mem_map.mpr ⟨row, List.mem_filter.mpr ⟨hrow, by simpa [hid] using hne⟩, hid⟩)
  episode_series := by
    intro s e he
    split at he
    · cases he
    · exact lib.episode_series s e he
  episode_id_ne_zero := by
    intro s e he
    split at he
    · cases he
    · exact lib.episode_id_ne_zero s e he
  episode_nodup := by
    intro s
    split
    · exact List.nodup_nil
    · exact lib.episode_nodup s
  episode_once := by
    intro s s' eid h h'
    split at h
    · cases h
    · split at h'
      · cases h'
      · exact lib.episode_once s s' eid h h'
  file_once := by
    intro s s' fid h h'
    split at h
    · cases h
    · split at h'
      · cases h'
      · exact lib.file_once s s' fid h h'

end SonarrLibrary

/-- An episode after a file was deleted. -/
def EpisodePayload.dropFile (fid : Int) (e : EpisodePayload) : EpisodePayload :=
  if e.carriedFile.map Prod.fst = some fid then
    { e with episodeFile := none, episodeFileId := none, hasFile := some false }
  else e

/-- An episode that loses its file keeps its id. -/
theorem id_dropFile (fid : Int) (e : EpisodePayload) : (e.dropFile fid).id = e.id := by
  unfold EpisodePayload.dropFile
  split <;> rfl

/-- It keeps its series. -/
theorem seriesId_dropFile (fid : Int) (e : EpisodePayload) :
    (e.dropFile fid).seriesId = e.seriesId := by
  unfold EpisodePayload.dropFile
  split <;> rfl

/-- It carries any other file still. -/
theorem carriedFile_dropFile {fid fid' : Int} {file : FilePayload} {e : EpisodePayload} :
    (e.dropFile fid).carriedFile = some (fid', file) ↔
      e.carriedFile = some (fid', file) ∧ fid' ≠ fid := by
  unfold EpisodePayload.dropFile
  split
  · next h =>
      have hnone : EpisodePayload.carriedFile
          { e with episodeFile := none, episodeFileId := none, hasFile := some false } = none := rfl
      rw [hnone]
      constructor
      · intro hcontra
        cases hcontra
      · intro hcontra
        rw [hcontra.1] at h
        exact absurd (Option.some.inj h) hcontra.2
  · next h =>
      constructor
      · intro hcarried
        refine ⟨hcarried, ?_⟩
        intro heq
        subst heq
        exact h (by rw [hcarried]; rfl)
      · exact fun hcarried => hcarried.1

/-- Without the file the episodes are the same. -/
theorem episodeIds_map_dropFile (fid : Int) (l : List EpisodePayload) :
    episodeIds (l.map (EpisodePayload.dropFile fid)) = episodeIds l := by
  simp [episodeIds, Function.comp_def, id_dropFile]

/-- Without the file every other file is there. -/
theorem mem_episodeFileIds_map_dropFile {fid fid' : Int} {l : List EpisodePayload} :
    fid' ∈ episodeFileIds (l.map (EpisodePayload.dropFile fid)) ↔
      fid' ∈ episodeFileIds l ∧ fid' ≠ fid := by
  simp only [mem_episodeFileIds_iff, List.mem_map, exists_exists_and_eq_and, carriedFile_dropFile]
  constructor
  · intro h
    obtain ⟨e, he, file, hcarried, hne⟩ := h
    exact ⟨⟨e, he, file, hcarried⟩, hne⟩
  · intro h
    obtain ⟨⟨e, he, file, hcarried⟩, hne⟩ := h
    exact ⟨e, he, file, hcarried, hne⟩

/-- The library after an episode file was deleted: its episodes stay. -/
def SonarrLibrary.withoutEpisodeFile (lib : SonarrLibrary) (fid : Int) : SonarrLibrary where
  series := lib.series
  episodes := fun sid => (lib.episodes sid).map (EpisodePayload.dropFile fid)
  series_nodup := lib.series_nodup
  series_id_ne_zero := lib.series_id_ne_zero
  episodes_absent := fun sid hsid => by rw [lib.episodes_absent sid hsid, List.map_nil]
  episode_series := by
    intro sid e he
    obtain ⟨e', he', rfl⟩ := List.mem_map.mp he
    rw [seriesId_dropFile]
    exact lib.episode_series sid e' he'
  episode_id_ne_zero := by
    intro sid e he
    obtain ⟨e', he', rfl⟩ := List.mem_map.mp he
    rw [id_dropFile]
    exact lib.episode_id_ne_zero sid e' he'
  episode_nodup := by
    intro sid
    have hids := episodeIds_map_dropFile fid (lib.episodes sid)
    unfold episodeIds at hids
    rw [hids]
    exact lib.episode_nodup sid
  episode_once := by
    intro sid sid' eid h h'
    rw [episodeIds_map_dropFile] at h h'
    exact lib.episode_once sid sid' eid h h'
  file_once := by
    intro sid sid' fid' h h'
    rw [mem_episodeFileIds_map_dropFile] at h h'
    exact lib.file_once sid sid' fid' h.1 h'.1

/-- The Sonarr delete events.  The payload names the series, for a file the
episodes it belonged to, and (unread by the processor) the file. -/
inductive SonarrDelete
  | series (sid : Int)
  | episodeFile (sid fid : Int) (eids : List Int)
deriving DecidableEq, Repr

namespace SonarrDelete

/-- The series an event names. -/
def seriesId : SonarrDelete → Int
  | series sid => sid
  | episodeFile sid _ _ => sid

/-- The job an event is queued as. -/
def job (inst : String) : SonarrDelete → WebhookJob
  | series sid => ⟨.sonarr, "SeriesDelete", { instanceName := some inst, seriesId := some sid }⟩
  | episodeFile sid _ eids =>
      ⟨.sonarr, "EpisodeFileDelete",
        { instanceName := some inst, seriesId := some sid, episodeIds := eids.map some }⟩

/-- What Sonarr holds after an event. -/
def after (lib : SonarrLibrary) : SonarrDelete → SonarrLibrary
  | series sid => lib.withoutSeries sid
  | episodeFile _ fid _ => lib.withoutEpisodeFile fid

end SonarrDelete

/-! ## Mirrors -/

/-- **The warehouse mirrors a Sonarr**: live rows are what it holds, and they
are filed where it files them. -/
structure MirrorsSonarr (inst : String) (wh : Warehouse) (lib : SonarrLibrary) : Prop where
  series : ∀ sid, wh.series.isLive ⟨sid, inst⟩ = true ↔ sid ∈ lib.seriesIds
  episodes : ∀ eid, wh.episode.isLive ⟨eid, inst⟩ = true ↔
    ∃ sid, eid ∈ episodeIds (lib.episodes sid)
  files : ∀ fid, wh.episodeFile.isLive ⟨fid, inst⟩ = true ↔
    ∃ sid, fid ∈ episodeFileIds (lib.episodes sid)
  episode_links : ∀ sid, ∀ eid ∈ episodeIds (lib.episodes sid), wh.seriesOf inst eid = some sid
  file_links : ∀ sid, ∀ fid ∈ episodeFileIds (lib.episodes sid),
    ∃ eid ∈ episodeIds (lib.episodes sid), wh.episodeOf inst fid = some eid

/-- What an event may leave of a library: fewer series and fewer files, and
the episodes of every series that is left. -/
structure SonarrLibrary.ShrunkTo (lib lib' : SonarrLibrary) : Prop where
  episodes : ∀ sid ∈ lib'.seriesIds,
    episodeIds (lib'.episodes sid) = episodeIds (lib.episodes sid)
  files : ∀ sid, ∀ fid ∈ episodeFileIds (lib'.episodes sid), fid ∈ episodeFileIds (lib.episodes sid)

/-- A series with an episode is in the library. -/
theorem SonarrLibrary.mem_seriesIds_of_mem_episodeIds (lib : SonarrLibrary) {sid eid : Int}
    (h : eid ∈ episodeIds (lib.episodes sid)) : sid ∈ lib.seriesIds := by
  obtain ⟨e, he, _⟩ := List.mem_map.mp h
  exact lib.mem_seriesIds_of_mem_episodes he

/-- A series with a file is in the library. -/
theorem SonarrLibrary.mem_seriesIds_of_mem_files (lib : SonarrLibrary) {sid fid : Int}
    (h : fid ∈ episodeFileIds (lib.episodes sid)) : sid ∈ lib.seriesIds := by
  obtain ⟨e, he, _⟩ := mem_episodeFileIds_iff.mp h
  exact lib.mem_seriesIds_of_mem_episodes he

/-- Without a series the others are there. -/
theorem mem_seriesIds_withoutSeries {lib : SonarrLibrary} {sid s : Int} :
    s ∈ (lib.withoutSeries sid).seriesIds ↔ s ∈ lib.seriesIds ∧ s ≠ sid := by
  simp only [SonarrLibrary.seriesIds, SonarrLibrary.withoutSeries, List.mem_map, List.mem_filter,
    decide_eq_true_eq]
  constructor
  · intro h
    obtain ⟨row, ⟨hrow, hne⟩, rfl⟩ := h
    exact ⟨⟨row, hrow, rfl⟩, hne⟩
  · intro h
    obtain ⟨⟨row, hrow, rfl⟩, hne⟩ := h
    exact ⟨row, ⟨hrow, hne⟩, rfl⟩

/-- Both events only shrink the library. -/
theorem shrunkTo_after (lib : SonarrLibrary) (event : SonarrDelete) :
    lib.ShrunkTo (event.after lib) := by
  cases event with
  | series sid =>
      refine ⟨?_, ?_⟩
      · intro s hs
        have hne := (mem_seriesIds_withoutSeries.mp hs).2
        simp [SonarrDelete.after, SonarrLibrary.withoutSeries, hne]
      · intro s fid hfid
        simp only [SonarrDelete.after, SonarrLibrary.withoutSeries] at hfid
        split at hfid
        · cases hfid
        · exact hfid
  | episodeFile sid fid eids =>
      refine ⟨?_, ?_⟩
      · intro s _
        exact episodeIds_map_dropFile fid (lib.episodes s)
      · intro s fid' hfid'
        exact (mem_episodeFileIds_map_dropFile.mp hfid').1

/-- **A mirror is refreshed exactly.**  Its links are the library's, so they
are in order whatever the chunks, and a live file hangs on an episode that a
series still present still lists. -/
theorem refreshCondition_of_mirrors {inst : String} {wh : Warehouse} {lib lib' : SonarrLibrary}
    (hmirror : MirrorsSonarr inst wh lib) (hshrunk : lib.ShrunkTo lib') (size : ℕ+)
    (events : List HistoryEvent) :
    RefreshCondition inst (lib'.refetches size events) wh := by
  have hw : WellFetched (lib'.refetches size events) := wellFetched_refetches size events
  refine ⟨?_, ?_, ?_⟩
  · intro pre chunk post hsplit eid heid sid hlink
    obtain ⟨part, _, rfl⟩ := List.mem_map.mp (show chunk ∈ lib'.refetches size events by
      rw [hsplit]; simp)
    obtain ⟨sid', hpart, hmem⟩ := lib'.mem_episodeIds_refetch_iff.mp heid
    have hin := lib'.mem_seriesIds_of_mem_episodeIds hmem
    rw [hshrunk.episodes sid' hin] at hmem
    rw [hmirror.episode_links sid' eid hmem] at hlink
    obtain rfl := Option.some.inj hlink
    exact List.mem_append_right _ (lib'.mem_present_refetch_iff.mpr ⟨hpart, hin⟩)
  · intro pre chunk post hsplit fid hfid eid hlink
    obtain ⟨part, _, rfl⟩ := List.mem_map.mp (show chunk ∈ lib'.refetches size events by
      rw [hsplit]; simp)
    obtain ⟨sid, hpart, hmem⟩ := lib'.mem_episodeFileIds_refetch_iff.mp hfid
    have hin := lib'.mem_seriesIds_of_mem_files hmem
    obtain ⟨eid', heid', hlink'⟩ := hmirror.file_links sid fid (hshrunk.files sid fid hmem)
    rw [hlink'] at hlink
    obtain rfl := Option.some.inj hlink
    rw [← hshrunk.episodes sid hin] at heid'
    have hfetched : eid' ∈ episodeIds (lib'.refetch part).episodes :=
      lib'.mem_episodeIds_refetch_iff.mpr ⟨sid, hpart, heid'⟩
    rw [hsplit] at hw
    refine ⟨hw.episode_notMem_post hfetched, fun hnow => absurd ?_ hnow⟩
    rw [mem_episodeIds_fetchedEpisodes]
    exact ⟨lib'.refetch part, by simp, hfetched⟩
  · intro fid hfid hlive eid hlink heid hpresent
    obtain ⟨sid, hmem⟩ := (hmirror.files fid).mp hlive
    obtain ⟨eid', heid', hlink'⟩ := hmirror.file_links sid fid hmem
    rw [hlink'] at hlink
    obtain rfl := Option.some.inj hlink
    rw [hmirror.episode_links sid eid' heid', filedUnder_some,
      mem_presentIds_refetches_iff] at hpresent
    rw [← hshrunk.episodes sid hpresent.2] at heid'
    obtain ⟨e, he, hid⟩ := List.mem_map.mp heid'
    apply heid
    exact List.mem_map.mpr
      ⟨e, mem_fetchedEpisodes_refetches_iff.mpr ⟨sid, hpresent.1, he⟩, hid⟩

/-! ## The two paths -/

section Sonarr

variable {inst : String} {wh : Warehouse} {lib lib' : SonarrLibrary}

/-- The warehouse after the incremental refresh of one series, with `lib'` as
what Sonarr holds. -/
def refreshSeries (inst : String) (tag : WriteTag) (lib' : SonarrLibrary) (sid : Int)
    (wh : Warehouse) : Warehouse :=
  (ingestSonarrHistoryChanges lib'.client (fun _ => false) inst tag [{ seriesId := some sid }]
    wh).state.wh

/-- The flags of a series, its episodes and their files are the same in both
warehouses.  The family is read off the warehouse `wh` the event found. -/
structure SeriesFlagsAgree (inst : String) (sid : Int) (wh w₁ w₂ : Warehouse) : Prop where
  series : w₁.series.isLive ⟨sid, inst⟩ = w₂.series.isLive ⟨sid, inst⟩
  episodes : ∀ eid, wh.seriesOf inst eid = some sid →
    w₁.episode.isLive ⟨eid, inst⟩ = w₂.episode.isLive ⟨eid, inst⟩
  files : ∀ fid eid, wh.episodeOf inst fid = some eid → wh.seriesOf inst eid = some sid →
    w₁.episodeFile.isLive ⟨fid, inst⟩ = w₂.episodeFile.isLive ⟨fid, inst⟩

/-- One series is one chunk. -/
theorem refreshSeries_eq {sid : Int} (hsid : sid ≠ 0) (tag : WriteTag) :
    refreshSeries inst tag lib' sid wh =
      (ingestSeriesChunks inst tag [lib'.refetch [sid]] ⟨wh, (), 0⟩).wh := by
  rw [refreshSeries, ingestSonarrHistoryChanges_of_answers lib'.client_answers,
    SonarrLibrary.refetches, changedIds_singleton rfl hsid, slices_singleton, List.map_singleton]

/-- One event is one chunk of one id. -/
theorem refetches_singleton {sid : Int} (hsid : sid ≠ 0) (size : ℕ+) :
    lib'.refetches size [{ seriesId := some sid }] = [lib'.refetch [sid]] := by
  rw [SonarrLibrary.refetches, changedIds_singleton rfl hsid, slices_singleton, List.map_singleton]

/-- In a mirror a live episode filed under a series is listed there. -/
theorem MirrorsSonarr.isLive_episode_iff (h : MirrorsSonarr inst wh lib) {sid eid : Int}
    (hlink : wh.seriesOf inst eid = some sid) :
    wh.episode.isLive ⟨eid, inst⟩ = true ↔ eid ∈ episodeIds (lib.episodes sid) := by
  rw [h.episodes eid]
  constructor
  · intro hlive
    obtain ⟨sid', hmem⟩ := hlive
    rw [h.episode_links sid' eid hmem] at hlink
    obtain rfl := Option.some.inj hlink
    exact hmem
  · exact fun hmem => ⟨sid, hmem⟩

/-- In a mirror a live file of a series' episode is carried there. -/
theorem MirrorsSonarr.isLive_file_iff (h : MirrorsSonarr inst wh lib) {sid eid fid : Int}
    (hepisode : wh.episodeOf inst fid = some eid) (hseries : wh.seriesOf inst eid = some sid) :
    wh.episodeFile.isLive ⟨fid, inst⟩ = true ↔ fid ∈ episodeFileIds (lib.episodes sid) := by
  rw [h.files fid]
  constructor
  · intro hlive
    obtain ⟨sid', hmem⟩ := hlive
    obtain ⟨eid', heid', hlink⟩ := h.file_links sid' fid hmem
    rw [hlink] at hepisode
    obtain rfl := Option.some.inj hepisode
    rw [h.episode_links sid' eid' heid'] at hseries
    obtain rfl := Option.some.inj hseries
    exact hmem
  · exact fun hmem => ⟨sid, hmem⟩

/-- **The reference.**  After the refresh of one series of a mirror, the flags
of its family are membership in what Sonarr holds now. -/
theorem refreshSeries_flags (hmirror : MirrorsSonarr inst wh lib) (hshrunk : lib.ShrunkTo lib')
    {sid : Int} (hsid : sid ≠ 0) (tag : WriteTag) :
    ((refreshSeries inst tag lib' sid wh).series.isLive ⟨sid, inst⟩ = true ↔
      sid ∈ lib'.seriesIds) ∧
    (∀ eid, wh.seriesOf inst eid = some sid →
      ((refreshSeries inst tag lib' sid wh).episode.isLive ⟨eid, inst⟩ = true ↔
        eid ∈ episodeIds (lib'.episodes sid))) ∧
    (∀ fid eid, wh.episodeOf inst fid = some eid → wh.seriesOf inst eid = some sid →
      ((refreshSeries inst tag lib' sid wh).episodeFile.isLive ⟨fid, inst⟩ = true ↔
        fid ∈ episodeFileIds (lib'.episodes sid))) := by
  have hcond := refreshCondition_of_mirrors hmirror hshrunk 1 [{ seriesId := some sid }]
  have hw : WellFetched (lib'.refetches 1 [{ seriesId := some sid }]) := wellFetched_refetches _ _
  rw [refetches_singleton hsid] at hcond hw
  have hexact := (refreshExact_iff inst tag ⟨wh, (), 0⟩ hw).mpr hcond
  have hsettled : sid ∈ settledIds [lib'.refetch [sid]] := by
    rw [mem_settledIds_iff]
    by_cases h : sid ∈ lib'.seriesIds
    · exact Or.inl (by simpa [presentIds] using lib'.mem_present_refetch_iff.mpr ⟨by simp, h⟩)
    · exact Or.inr (by simpa [deletedIds] using lib'.mem_deleted_refetch_iff.mpr ⟨by simp, h⟩)
  have hfetched : ∀ eid, eid ∈ episodeIds (fetchedEpisodes [lib'.refetch [sid]]) ↔
      eid ∈ episodeIds (lib'.episodes sid) := by
    intro eid
    rw [mem_episodeIds_fetchedEpisodes]
    simp [lib'.mem_episodeIds_refetch_iff]
  have hfetchedFiles : ∀ fid, fid ∈ episodeFileIds (fetchedEpisodes [lib'.refetch [sid]]) ↔
      fid ∈ episodeFileIds (lib'.episodes sid) := by
    intro fid
    rw [mem_episodeFileIds_fetchedEpisodes]
    simp [lib'.mem_episodeFileIds_refetch_iff]
  rw [refreshSeries_eq hsid]
  refine ⟨?_, ?_, ?_⟩
  · simp only [ingestSeriesChunks, List.foldl_cons, List.foldl_nil]
    rw [isLive_series_ingestSeriesChunk, lib'.mem_present_refetch_iff, lib'.mem_deleted_refetch_iff]
    simp only [List.mem_singleton, true_and]
    by_cases h : sid ∈ lib'.seriesIds <;> simp [h]
  · intro eid hlink
    have hafter := seriesOf_ingestSeriesChunks inst tag [lib'.refetch [sid]] ⟨wh, (), 0⟩ eid
    rw [hlink, Option.some_or] at hafter
    have hepisode := hexact.episodes eid
    rw [hafter, filedUnder_some, and_iff_left hsettled] at hepisode
    rw [hepisode, hfetched]
  · intro fid eid hepisode hseries
    have hfile := hexact.files fid
    have hafter := seriesOf_ingestSeriesChunks inst tag [lib'.refetch [sid]] ⟨wh, (), 0⟩ eid
    have hafter' := episodeOf_ingestSeriesChunks inst tag [lib'.refetch [sid]] ⟨wh, (), 0⟩ fid
    rw [hseries, Option.some_or] at hafter
    rw [hepisode, Option.some_or] at hafter'
    have hunder : ∃ e, (ingestSeriesChunks inst tag [lib'.refetch [sid]]
        ⟨wh, (), 0⟩).wh.episodeOf inst fid = some e ∧
        FiledUnder ((ingestSeriesChunks inst tag [lib'.refetch [sid]]
          ⟨wh, (), 0⟩).wh.seriesOf inst e) (settledIds [lib'.refetch [sid]]) :=
      ⟨eid, hafter', by rw [hafter, filedUnder_some]; exact hsettled⟩
    rw [and_iff_left hunder] at hfile
    rw [hfile, hfetchedFiles]

/-- The event is read as a deletion of a series. -/
theorem containsWord_seriesDelete :
    containsWord "delete" "SeriesDelete" = true ∧ containsWord "series" "SeriesDelete" = true := by
  decide

/-- The event is read as a deletion, and not of a series. -/
theorem containsWord_episodeFileDelete :
    containsWord "delete" "EpisodeFileDelete" = true ∧
      containsWord "series" "EpisodeFileDelete" = false := by
  decide

variable {clients : Integrations} {client : SonarrClient}

/-- A `SeriesDelete` job never fails and never asks Sonarr. -/
theorem process_seriesDelete (hclient : clients.sonarr inst = some client) {sid : Int}
    (hsid : sid ≠ 0) (tag : WriteTag) :
    processWebhookJob clients tag ((SonarrDelete.series sid).job inst) wh =
      .ok (tombstoneWebhookSeriesDelete inst [sid] wh) := by
  simp [processWebhookJob, processSonarrJob, SonarrDelete.job, WebhookPayload.instance,
    integrationByName, hclient, containsWord_seriesDelete.1, containsWord_seriesDelete.2, hsid,
    bind, Except.bind, pure, Except.pure, Option.filter]

/-- Neither does an `EpisodeFileDelete` job. -/
theorem process_episodeFileDelete (hclient : clients.sonarr inst = some client) (sid fid : Int)
    (eids : List Int) (tag : WriteTag) :
    processWebhookJob clients tag ((SonarrDelete.episodeFile sid fid eids).job inst) wh =
      .ok (tombstoneWebhookEpisodes inst (eids.filter (· ≠ 0)) wh) := by
  have hids : ∀ l : List Int, (l.map some).filterMap (fun id => id.filter (· ≠ 0)) =
      l.filter (· ≠ 0) := by
    intro l
    induction l with
    | nil => rfl
    | cons id rest ih =>
        rw [List.map_cons, List.filterMap_cons, List.filter_cons, ih]
        by_cases h : id = 0 <;> simp [Option.filter, h]
  simp only [processWebhookJob, processSonarrJob, SonarrDelete.job, WebhookPayload.instance,
    integrationByName, hclient, Option.getD_some, containsWord_episodeFileDelete.1,
    containsWord_episodeFileDelete.2, WebhookPayload.deletedEpisodeIds, hids, bind, Except.bind,
    pure, Except.pure, if_true, Bool.false_eq_true, if_false]

/-- **`SeriesDelete` agrees with a refetch when nothing is live below the
series but files.** -/
theorem seriesDelete_agrees_iff (hmirror : MirrorsSonarr inst wh lib) {sid : Int}
    (hsid : sid ≠ 0) (tag : WriteTag) :
    SeriesFlagsAgree inst sid wh (tombstoneWebhookSeriesDelete inst [sid] wh)
        (refreshSeries inst tag (lib.withoutSeries sid) sid wh) ↔
      ∀ eid, wh.seriesOf inst eid = some sid → wh.episode.isLive ⟨eid, inst⟩ = false := by
  have hshrunk := shrunkTo_after lib (.series sid)
  obtain ⟨hseries, hepisodes, hfiles⟩ := refreshSeries_flags hmirror hshrunk hsid tag
  have hgone : sid ∉ (lib.withoutSeries sid).seriesIds := fun h =>
    (mem_seriesIds_withoutSeries.mp h).2 rfl
  have hnone : (lib.withoutSeries sid).episodes sid = [] := by simp [SonarrLibrary.withoutSeries]
  simp only [SonarrDelete.after, hnone, hgone, iff_false, Bool.not_eq_true, episodeIds,
    episodeFileIds, episodeFilesOf, List.map_nil, List.filterMap_nil, List.not_mem_nil]
    at hseries hepisodes hfiles
  constructor
  · intro h eid hlink
    have hsame := h.episodes eid hlink
    rwa [hepisodes eid hlink] at hsame
  · intro h
    refine ⟨?_, ?_, ?_⟩
    · rw [hseries]
      simp [tombstoneWebhookSeriesDelete]
    · intro eid hlink
      rw [hepisodes eid hlink]
      exact h eid hlink
    · intro fid eid hepisode hlink
      rw [hfiles fid eid hepisode hlink, ← Bool.not_eq_true, tombstoneWebhookSeriesDelete,
        isLive_tombstoneEpisodeFilesForSeries_iff]
      intro hkept
      apply hkept.2 eid hepisode
      rw [show parentLink EpisodeCols.seriesSourceId wh.episode ⟨eid, inst⟩ = some sid from hlink]
      simp

/-- **`EpisodeFileDelete` agrees with a refetch only when it is about nothing
the series has**: the file is not carried there and no named episode is of it.
The job flags the episodes, which Sonarr still has, and leaves the file live. -/
theorem episodeFileDelete_agrees_iff (hmirror : MirrorsSonarr inst wh lib) {sid : Int}
    (hsid : sid ≠ 0) (fid : Int) (eids : List Int) (tag : WriteTag) :
    SeriesFlagsAgree inst sid wh (tombstoneWebhookEpisodes inst (eids.filter (· ≠ 0)) wh)
        (refreshSeries inst tag (lib.withoutEpisodeFile fid) sid wh) ↔
      fid ∉ episodeFileIds (lib.episodes sid) ∧
        ∀ eid ∈ eids, eid ∉ episodeIds (lib.episodes sid) := by
  have hshrunk := shrunkTo_after lib (.episodeFile sid fid eids)
  obtain ⟨hseries, hepisodes, hfiles⟩ := refreshSeries_flags hmirror hshrunk hsid tag
  have hids : ∀ s, episodeIds ((lib.withoutEpisodeFile fid).episodes s) =
      episodeIds (lib.episodes s) := fun s => episodeIds_map_dropFile fid (lib.episodes s)
  have hfids : ∀ s f, f ∈ episodeFileIds ((lib.withoutEpisodeFile fid).episodes s) ↔
      f ∈ episodeFileIds (lib.episodes s) ∧ f ≠ fid :=
    fun s f => mem_episodeFileIds_map_dropFile
  simp only [SonarrDelete.after, hids, hfids] at hseries hepisodes hfiles
  constructor
  · intro h
    refine ⟨?_, ?_⟩
    · intro hfid
      obtain ⟨eid, heid, hepisode⟩ := hmirror.file_links sid fid hfid
      have hlink := hmirror.episode_links sid eid heid
      have hsame := h.files fid eid hepisode hlink
      have hlive : wh.episodeFile.isLive ⟨fid, inst⟩ = true := (hmirror.files fid).mpr ⟨sid, hfid⟩
      have hdead := (hfiles fid eid hepisode hlink).mp (hsame ▸ hlive)
      exact hdead.2 rfl
    · intro eid hnamed heid
      have hlink := hmirror.episode_links sid eid heid
      have hsame := h.episodes eid hlink
      obtain ⟨e, he, hid⟩ := List.mem_map.mp heid
      have hne : eid ≠ 0 := hid ▸ lib.episode_id_ne_zero sid e he
      rw [(hepisodes eid hlink).mpr heid] at hsame
      simp [tombstoneWebhookEpisodes, hnamed, hne] at hsame
  · intro h
    obtain ⟨hfid, hnamed⟩ := h
    refine ⟨?_, ?_, ?_⟩
    · rw [Bool.eq_iff_iff, hseries]
      exact hmirror.series sid
    · intro eid hlink
      rw [Bool.eq_iff_iff, hepisodes eid hlink, ← hmirror.isLive_episode_iff hlink]
      simp only [tombstoneWebhookEpisodes, isLive_markDeletedSourceIds, Bool.and_eq_true]
      apply and_iff_left_of_imp
      intro hlive
      have hin := (hmirror.isLive_episode_iff hlink).mp hlive
      have hnot : eid ∉ eids := fun hmem => hnamed eid hmem hin
      simp [hnot]
    · intro f eid hepisode hlink
      rw [Bool.eq_iff_iff, hfiles f eid hepisode hlink, ← hmirror.isLive_file_iff hepisode hlink]
      symm
      apply and_iff_left_of_imp
      intro hlive
      have hin := (hmirror.isLive_file_iff hepisode hlink).mp hlive
      intro heq
      subst heq
      exact hfid hin

end Sonarr

/-! ## Radarr -/

/-- A movie after its file was deleted. -/
def MoviePayload.dropFile (mid : Int) (m : MoviePayload) : MoviePayload :=
  if m.id = mid then { m with movieFile := none, hasFile := some false } else m

/-- A movie that loses its file keeps its id. -/
theorem MoviePayload.id_dropFile (mid : Int) (m : MoviePayload) : (m.dropFile mid).id = m.id := by
  unfold MoviePayload.dropFile
  split <;> rfl

/-- Every other movie carries its file still. -/
theorem MoviePayload.carriedFile_dropFile {mid fid : Int} {file : FilePayload} {m : MoviePayload} :
    (m.dropFile mid).carriedFile = some (fid, file) ↔
      m.carriedFile = some (fid, file) ∧ m.id ≠ mid := by
  unfold MoviePayload.dropFile
  split
  · next h =>
      have hnone : MoviePayload.carriedFile { m with movieFile := none, hasFile := some false } =
          none := rfl
      rw [hnone]
      simp [h]
  · next h => simp [h]

namespace RadarrLibrary

/-- The library after a movie was deleted. -/
def withoutMovie (lib : RadarrLibrary) (mid : Int) : RadarrLibrary where
  movies := lib.movies.filter fun row => row.id ≠ mid
  movie_nodup := lib.movie_nodup.sublist (List.filter_sublist.map _)
  movie_id_ne_zero := fun row hrow => lib.movie_id_ne_zero row (List.mem_of_mem_filter hrow)
  file_once := fun m hm m' hm' => lib.file_once m (List.mem_of_mem_filter hm) m'
    (List.mem_of_mem_filter hm')

/-- The library after a movie's file was deleted: the movie stays. -/
def withoutMovieFile (lib : RadarrLibrary) (mid : Int) : RadarrLibrary where
  movies := lib.movies.map (MoviePayload.dropFile mid)
  movie_nodup := by
    have hids : (lib.movies.map (MoviePayload.dropFile mid)).map MoviePayload.id =
        lib.movies.map MoviePayload.id := by
      simp [Function.comp_def, MoviePayload.id_dropFile]
    rw [hids]
    exact lib.movie_nodup
  movie_id_ne_zero := by
    intro row hrow
    obtain ⟨m, hm, rfl⟩ := List.mem_map.mp hrow
    rw [MoviePayload.id_dropFile]
    exact lib.movie_id_ne_zero m hm
  file_once := by
    intro m hm m' hm' fid file file' hcarried hcarried'
    obtain ⟨row, hrow, rfl⟩ := List.mem_map.mp hm
    obtain ⟨row', hrow', rfl⟩ := List.mem_map.mp hm'
    rw [MoviePayload.carriedFile_dropFile] at hcarried hcarried'
    rw [MoviePayload.id_dropFile, MoviePayload.id_dropFile]
    exact lib.file_once row hrow row' hrow' fid file file' hcarried.1 hcarried'.1

/-- Without a file the movies are the same. -/
theorem mem_movieIds_withoutMovieFile {lib : RadarrLibrary} {mid m : Int} :
    m ∈ (lib.withoutMovieFile mid).movieIds ↔ m ∈ lib.movieIds := by
  simp [movieIds, withoutMovieFile, MoviePayload.id_dropFile]

end RadarrLibrary

/-- The Radarr delete events. -/
inductive RadarrDelete
  | movie (mid : Int)
  | movieFile (mid : Int)
deriving DecidableEq, Repr

namespace RadarrDelete

/-- The movie an event names. -/
def movieId : RadarrDelete → Int
  | movie mid => mid
  | movieFile mid => mid

/-- The event type Radarr sends. -/
def eventType : RadarrDelete → String
  | movie _ => "MovieDelete"
  | movieFile _ => "MovieFileDelete"

/-- The job an event is queued as. -/
def job (inst : String) (event : RadarrDelete) : WebhookJob :=
  ⟨.radarr, event.eventType, { instanceName := some inst, movieId := some event.movieId }⟩

/-- What Radarr holds after an event. -/
def after (lib : RadarrLibrary) : RadarrDelete → RadarrLibrary
  | movie mid => lib.withoutMovie mid
  | movieFile mid => lib.withoutMovieFile mid

/-- Each of Radarr's events is read as a deletion. -/
theorem containsWord_eventType (event : RadarrDelete) :
    containsWord "delete" event.eventType = true := by
  cases event with
  | movie mid =>
      show containsWord "delete" "MovieDelete" = true
      decide
  | movieFile mid =>
      show containsWord "delete" "MovieFileDelete" = true
      decide

end RadarrDelete

/-- The warehouse mirrors a Radarr. -/
structure MirrorsRadarr (inst : String) (wh : Warehouse) (lib : RadarrLibrary) : Prop where
  movies : ∀ mid, wh.movie.isLive ⟨mid, inst⟩ = true ↔ mid ∈ lib.movieIds
  files : ∀ fid, wh.movieFile.isLive ⟨fid, inst⟩ = true ↔ fid ∈ movieFileIds lib.movies
  file_links : ∀ m ∈ lib.movies, ∀ fid file, m.carriedFile = some (fid, file) →
    wh.movieOf inst fid = some m.id

section Radarr

variable {inst : String} {wh : Warehouse} {lib lib' : RadarrLibrary} {clients : Integrations}
  {client : RadarrClient}

/-- The warehouse after the incremental refresh of one movie. -/
def refreshMovie (inst : String) (tag : WriteTag) (lib' : RadarrLibrary) (mid : Int)
    (wh : Warehouse) : Warehouse :=
  (ingestRadarrHistoryChanges lib'.client (fun _ => false) inst tag [{ movieId := some mid }]
    wh).state.wh

/-- The flags of a movie and its files are the same in both warehouses. -/
structure MovieFlagsAgree (inst : String) (mid : Int) (wh w₁ w₂ : Warehouse) : Prop where
  movie : w₁.movie.isLive ⟨mid, inst⟩ = w₂.movie.isLive ⟨mid, inst⟩
  files : ∀ fid, wh.movieOf inst fid = some mid →
    w₁.movieFile.isLive ⟨fid, inst⟩ = w₂.movieFile.isLive ⟨fid, inst⟩

/-- The refresh of a movie is one chunk of its id. -/
theorem refreshMovie_eq {mid : Int} (hmid : mid ≠ 0) (tag : WriteTag) :
    refreshMovie inst tag lib' mid wh =
      (ingestMovieChunk inst tag (lib'.refetch [mid]) ⟨wh, (), 0⟩).wh := by
  rw [refreshMovie, ingestRadarrHistoryChanges_of_answers lib'.client_answers,
    RadarrLibrary.refetches, changedIds_singleton rfl hmid, slices_singleton, List.map_singleton]
  rfl

/-- A Radarr delete job flags the movie and nothing else. -/
theorem process_radarrDelete (hclient : clients.radarr inst = some client) (event : RadarrDelete)
    (hmid : event.movieId ≠ 0) (tag : WriteTag) :
    processWebhookJob clients tag (event.job inst) wh =
      .ok { wh with movie := markDeletedSourceIds wh.movie inst [event.movieId] } := by
  simp [processWebhookJob, processRadarrJob, RadarrDelete.job, WebhookPayload.instance,
    integrationByName, hclient, event.containsWord_eventType, webhookMovies, hmid,
    writeWebhookMovies, bind, Except.bind, pure, Except.pure, Option.filter]

/-- The job flags the movie it names. -/
theorem isLive_markedMovie (mid : Int) :
    (markDeletedSourceIds wh.movie inst [mid]).isLive ⟨mid, inst⟩ = false := by
  simp

/-- The reference: after the refresh of a movie its flag is membership, and a
movie Radarr lacks has no live file. -/
theorem refreshMovie_flags {mid : Int} (hmid : mid ≠ 0) (tag : WriteTag) :
    ((refreshMovie inst tag lib' mid wh).movie.isLive ⟨mid, inst⟩ = true ↔
      mid ∈ lib'.movieIds) ∧
    (mid ∉ lib'.movieIds → ∀ fid, wh.movieOf inst fid = some mid →
      (refreshMovie inst tag lib' mid wh).movieFile.isLive ⟨fid, inst⟩ = false) := by
  rw [refreshMovie_eq hmid]
  refine ⟨?_, ?_⟩
  · rw [isLive_movie_ingestMovieChunk, lib'.mem_present_refetch_iff, lib'.mem_deleted_refetch_iff]
    simp only [List.mem_singleton, true_and]
    by_cases h : mid ∈ lib'.movieIds <;> simp [h]
  · intro hgone fid hlink
    rw [← Bool.not_eq_true, isLive_file_ingestMovieChunk, movieOf_ingestMovieChunk, hlink,
      Option.some_or, filedUnder_some, filedUnder_some, lib'.mem_deleted_refetch_iff]
    simp [hgone]

/-- **`MovieDelete` agrees with a refetch when no file of the movie is live.** -/
theorem movieDelete_agrees_iff {mid : Int} (hmid : mid ≠ 0) (tag : WriteTag) :
    MovieFlagsAgree inst mid wh { wh with movie := markDeletedSourceIds wh.movie inst [mid] }
        (refreshMovie inst tag (lib.withoutMovie mid) mid wh) ↔
      ∀ fid, wh.movieOf inst fid = some mid → wh.movieFile.isLive ⟨fid, inst⟩ = false := by
  have hgone : mid ∉ (lib.withoutMovie mid).movieIds := by
    simp [RadarrLibrary.movieIds, RadarrLibrary.withoutMovie]
  obtain ⟨hmovie, hfiles⟩ := refreshMovie_flags hmid tag
  constructor
  · intro h fid hlink
    have hsame := h.files fid hlink
    rwa [hfiles hgone fid hlink] at hsame
  · intro h
    refine ⟨?_, ?_⟩
    · rw [isLive_markedMovie, eq_comm, ← Bool.not_eq_true, hmovie]
      exact hgone
    · intro fid hlink
      rw [hfiles hgone fid hlink]
      exact h fid hlink

/-- **`MovieFileDelete` agrees with a refetch only for a movie Radarr does not
have**: otherwise the job flags the movie, which is still there. -/
theorem movieFileDelete_agrees_iff (hmirror : MirrorsRadarr inst wh lib) {mid : Int}
    (hmid : mid ≠ 0) (tag : WriteTag) :
    MovieFlagsAgree inst mid wh { wh with movie := markDeletedSourceIds wh.movie inst [mid] }
        (refreshMovie inst tag (lib.withoutMovieFile mid) mid wh) ↔ mid ∉ lib.movieIds := by
  obtain ⟨hmovie, hfiles⟩ := refreshMovie_flags hmid tag
  constructor
  · intro h hin
    have hsame := h.movie
    rw [isLive_markedMovie, hmovie.mpr (RadarrLibrary.mem_movieIds_withoutMovieFile.mpr hin)]
      at hsame
    cases hsame
  · intro hout
    have hgone : mid ∉ (lib.withoutMovieFile mid).movieIds := fun h =>
      hout (RadarrLibrary.mem_movieIds_withoutMovieFile.mp h)
    refine ⟨?_, ?_⟩
    · rw [isLive_markedMovie, eq_comm, ← Bool.not_eq_true, hmovie]
      exact hgone
    · intro fid hlink
      rw [hfiles hgone fid hlink, ← Bool.not_eq_true]
      intro hlive
      obtain ⟨m, hm, file, hcarried⟩ := mem_movieFileIds_iff.mp ((hmirror.files fid).mp hlive)
      rw [hmirror.file_links m hm fid file hcarried] at hlink
      obtain rfl := Option.some.inj hlink
      exact hout (List.mem_map_of_mem hm)

end Radarr

/-! ## Agreement -/

/-- When a Sonarr delete event agrees with a refetch: a deleted series has no
live episode; a deleted file is not carried in the series and no named
episode is of the series. -/
def SonarrDelete.AgreesWhen (inst : String) (wh : Warehouse) (lib : SonarrLibrary) :
    SonarrDelete → Prop
  | .series sid =>
      ∀ eid, wh.seriesOf inst eid = some sid → wh.episode.isLive ⟨eid, inst⟩ = false
  | .episodeFile sid fid eids =>
      fid ∉ episodeFileIds (lib.episodes sid) ∧ ∀ eid ∈ eids, eid ∉ episodeIds (lib.episodes sid)

/-- When a Radarr delete event agrees with a refetch: a deleted movie has no
live file; a movie whose file was deleted is not in Radarr. -/
def RadarrDelete.AgreesWhen (inst : String) (wh : Warehouse) (lib : RadarrLibrary) :
    RadarrDelete → Prop
  | .movie mid =>
      ∀ fid, wh.movieOf inst fid = some mid → wh.movieFile.isLive ⟨fid, inst⟩ = false
  | .movieFile mid => mid ∉ lib.movieIds

/-- **Delete events against a refetch.**  From a warehouse that mirrors Arr,
every delete job succeeds, and it leaves the flags of the named family as the
incremental refresh would from Arr's state after the event if and only if the
event agrees. -/
theorem webhook_delete_agrees_iff (clients : Integrations) (inst : String) (tag : WriteTag)
    (wh : Warehouse) :
    (∀ (client : SonarrClient) (lib : SonarrLibrary) (event : SonarrDelete),
      clients.sonarr inst = some client → MirrorsSonarr inst wh lib → event.seriesId ≠ 0 →
        ∃ w, processWebhookJob clients tag (event.job inst) wh = .ok w ∧
          (SeriesFlagsAgree inst event.seriesId wh w
              (refreshSeries inst tag (event.after lib) event.seriesId wh) ↔
            event.AgreesWhen inst wh lib)) ∧
    (∀ (client : RadarrClient) (lib : RadarrLibrary) (event : RadarrDelete),
      clients.radarr inst = some client → MirrorsRadarr inst wh lib → event.movieId ≠ 0 →
        ∃ w, processWebhookJob clients tag (event.job inst) wh = .ok w ∧
          (MovieFlagsAgree inst event.movieId wh w
              (refreshMovie inst tag (event.after lib) event.movieId wh) ↔
            event.AgreesWhen inst wh lib)) := by
  refine ⟨?_, ?_⟩
  · intro client lib event hclient hmirror hid
    cases event with
    | series sid =>
        exact ⟨_, process_seriesDelete hclient hid tag, seriesDelete_agrees_iff hmirror hid tag⟩
    | episodeFile sid fid eids =>
        exact ⟨_, process_episodeFileDelete hclient sid fid eids tag,
          episodeFileDelete_agrees_iff hmirror hid fid eids tag⟩
  · intro client lib event hclient hmirror hid
    refine ⟨_, process_radarrDelete hclient event hid tag, ?_⟩
    cases event with
    | movie mid => exact movieDelete_agrees_iff hid tag
    | movieFile mid => exact movieFileDelete_agrees_iff hmirror hid tag

/-! ### One series with one episode -/

/-- Sonarr has series 1 with episode 11 and its file 21. -/
def oneEpisodeLibrary : SonarrLibrary where
  series := [{ id := 1 }]
  episodes := fun sid =>
    if sid = 1 then [{ id := 11, seriesId := 1, episodeFile := some { id := some 21 } }] else []
  series_nodup := emptiedLibrary.series_nodup
  series_id_ne_zero := emptiedLibrary.series_id_ne_zero
  episodes_absent := by
    intro sid hsid
    have hne : sid ≠ 1 := by simpa using hsid
    simp [hne]
  episode_series := by
    intro sid e he
    by_cases h : sid = 1 <;> simp_all
  episode_id_ne_zero := by
    intro sid e he
    by_cases h : sid = 1 <;> simp_all
  episode_nodup := by
    intro sid
    by_cases h : sid = 1 <;> simp [h]
  episode_once := by
    intro sid sid' eid h h'
    by_cases hs : sid = 1 <;> by_cases hs' : sid' = 1 <;> simp_all [episodeIds]
  file_once := by
    intro sid sid' fid h h'
    by_cases hs : sid = 1 <;> by_cases hs' : sid' = 1 <;>
      simp_all [episodeFileIds, episodeFilesOf]

/-- Series 1 has episode 11. -/
theorem mem_episodeIds_oneEpisode {sid eid : Int} :
    eid ∈ episodeIds (oneEpisodeLibrary.episodes sid) ↔ sid = 1 ∧ eid = 11 := by
  by_cases h : sid = 1 <;> simp [oneEpisodeLibrary, episodeIds, h]

/-- Episode 11 has file 21. -/
theorem mem_episodeFileIds_oneEpisode {sid fid : Int} :
    fid ∈ episodeFileIds (oneEpisodeLibrary.episodes sid) ↔ sid = 1 ∧ fid = 21 := by
  by_cases h : sid = 1
  · subst h
    have hfiles : episodeFileIds (oneEpisodeLibrary.episodes 1) = [21] := rfl
    simp [hfiles]
  · simp [oneEpisodeLibrary, episodeFileIds, episodeFilesOf, h]

/-- The family warehouse shows exactly this library. -/
theorem familyWarehouse_mirrors : MirrorsSonarr "default" familyWarehouse oneEpisodeLibrary where
  series := by
    intro sid
    simp [familyWarehouse, oneEpisodeLibrary, SonarrLibrary.seriesIds]
  episodes := by
    intro eid
    simp [familyWarehouse, mem_episodeIds_oneEpisode]
  files := by
    intro fid
    simp [familyWarehouse, mem_episodeFileIds_oneEpisode]
  episode_links := by
    intro sid eid heid
    obtain ⟨rfl, rfl⟩ := mem_episodeIds_oneEpisode.mp heid
    decide
  file_links := by
    intro sid fid hfid
    obtain ⟨rfl, rfl⟩ := mem_episodeFileIds_oneEpisode.mp hfid
    exact ⟨11, mem_episodeIds_oneEpisode.mpr ⟨rfl, rfl⟩, by decide⟩

/-- One enabled Sonarr instance. -/
def defaultSonarr : Integrations where
  sonarr := fun inst => if inst = "default" then some oneEpisodeLibrary.client else none
  radarr := fun _ => none

/-- The deleted series keeps its live episode. -/
theorem series_delete_leaves_episode :
    MirrorsSonarr "default" familyWarehouse oneEpisodeLibrary ∧
      ∃ w, processWebhookJob defaultSonarr ⟨1, "webhook", String.toLower⟩
          ((SonarrDelete.series 1).job "default") familyWarehouse = .ok w ∧
        ¬ SeriesFlagsAgree "default" 1 familyWarehouse w
          (refreshSeries "default" ⟨1, "webhook", String.toLower⟩
            (oneEpisodeLibrary.withoutSeries 1) 1
            familyWarehouse) := by
  refine ⟨familyWarehouse_mirrors, _, process_seriesDelete rfl (by decide) _, ?_⟩
  rw [seriesDelete_agrees_iff familyWarehouse_mirrors (by decide)]
  intro h
  have hdead := h 11 (by decide)
  simp [familyWarehouse] at hdead

/-- An event about a file the series does not carry is harmless. -/
theorem unknown_file_delete_agrees :
    ∃ w, processWebhookJob defaultSonarr ⟨1, "webhook", String.toLower⟩
        ((SonarrDelete.episodeFile 1 99 []).job "default") familyWarehouse = .ok w ∧
      SeriesFlagsAgree "default" 1 familyWarehouse w
        (refreshSeries "default" ⟨1, "webhook", String.toLower⟩
          (oneEpisodeLibrary.withoutEpisodeFile 99) 1
          familyWarehouse) := by
  obtain ⟨w, hw, hagree⟩ :=
    (webhook_delete_agrees_iff defaultSonarr "default" ⟨1, "webhook", String.toLower⟩
    familyWarehouse).1 oneEpisodeLibrary.client oneEpisodeLibrary (.episodeFile 1 99 []) rfl
    familyWarehouse_mirrors (by decide)
  refine ⟨w, hw, hagree.mpr ⟨?_, fun _ h => nomatch h⟩⟩
  rw [mem_episodeFileIds_oneEpisode]
  decide

end Nebularr
