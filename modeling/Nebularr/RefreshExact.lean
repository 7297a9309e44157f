import Nebularr.Library

/-!
# When an incremental refresh is exact

An incremental run refetches a list of series in chunks and ought to leave
their families as a full sync would: live exactly what was fetched, and
nothing else touched.  Three facts decide whether it does.

* An upsert never moves a row to another parent, so an episode stays filed
  where it was first seen (`seriesOf_ingestSeriesChunks`).
* An episode nobody fetched goes when its series was settled
  (`isLive_episode_of_unfetched`).
* A file nobody fetched goes when its episode was *fetched* or its series is
  *gone* (`isLive_file_of_unfetched`).  The file of an episode that vanished
  from a series Sonarr still has is in neither case, and stays.

`refreshExact_iff` puts them together: the refresh is exact if and only if no
live file hangs on a vanished episode and the links on file agree with the
order of the chunks.
-/

namespace Nebularr

/-! ## What a list of chunks settles -/

def settledIds (chunks : List SeriesRefetch) : List Int := chunks.flatMap SeriesRefetch.ids

def presentIds (chunks : List SeriesRefetch) : List Int :=
  chunks.flatMap fun chunk => chunkSeriesIds chunk.present

def deletedIds (chunks : List SeriesRefetch) : List Int := chunks.flatMap SeriesRefetch.deleted

def fetchedEpisodes (chunks : List SeriesRefetch) : List EpisodePayload :=
  chunks.flatMap SeriesRefetch.episodes

/-- The chunks one after the other. -/
def ingestSeriesChunks (inst : String) (tag : WriteTag) (chunks : List SeriesRefetch)
    (s : WriteState Unit) : WriteState Unit :=
  chunks.foldl (fun s chunk => ingestSeriesChunk inst tag chunk s) s

section Lists

variable (chunk : SeriesRefetch) (chunks : List SeriesRefetch)

/-- The first chunk settles its ids before the others. -/
@[simp] theorem settledIds_cons : settledIds (chunk :: chunks) = chunk.ids ++ settledIds chunks :=
  List.flatMap_cons

/-- The first chunk's series come before the others. -/
@[simp] theorem presentIds_cons :
    presentIds (chunk :: chunks) = chunkSeriesIds chunk.present ++ presentIds chunks :=
  List.flatMap_cons

/-- The first chunk's deletions come before the others. -/
@[simp] theorem deletedIds_cons :
    deletedIds (chunk :: chunks) = chunk.deleted ++ deletedIds chunks :=
  List.flatMap_cons

/-- The first chunk's episodes come before the others. -/
@[simp] theorem fetchedEpisodes_cons :
    fetchedEpisodes (chunk :: chunks) = chunk.episodes ++ fetchedEpisodes chunks :=
  List.flatMap_cons

/-- The episodes of two lists are those of each. -/
theorem episodeIds_append (l l' : List EpisodePayload) :
    episodeIds (l ++ l') = episodeIds l ++ episodeIds l' :=
  List.map_append

/-- The files of two lists are those of each. -/
theorem episodeFileIds_append (l l' : List EpisodePayload) :
    episodeFileIds (l ++ l') = episodeFileIds l ++ episodeFileIds l' := by
  simp [episodeFileIds, episodeFilesOf_append]

/-- The first series of an episode is the first list's, if it has the episode.
-/
theorem firstSeriesOf_append (l l' : List EpisodePayload) (eid : Int) :
    firstSeriesOf (l ++ l') eid = (firstSeriesOf l eid).or (firstSeriesOf l' eid) := by
  simp only [firstSeriesOf, List.find?_append]
  cases List.find? (fun row => decide (row.id = eid)) l <;> simp

/-- The first owner of a file is the first list's, if it has the file. -/
theorem firstOwnerOf_append (l l' : List CarriedFile) (fid : Int) :
    firstOwnerOf (l ++ l') fid = (firstOwnerOf l fid).or (firstOwnerOf l' fid) := by
  simp only [firstOwnerOf, List.find?_append]
  cases List.find? (fun f => decide (f.fileId = fid)) l <;> simp

/-- No payload of the list files the episode anywhere. -/
theorem firstSeriesOf_of_notMem {l : List EpisodePayload} {eid : Int} (h : eid ∉ episodeIds l) :
    firstSeriesOf l eid = none := by
  simp only [firstSeriesOf, Option.map_eq_none_iff, List.find?_eq_none, decide_eq_true_eq]
  intro row hrow hid
  exact h (List.mem_map.mpr ⟨row, hrow, hid⟩)

/-- A fetched episode is filed by one of its payloads. -/
theorem exists_firstSeriesOf {l : List EpisodePayload} {eid : Int} (h : eid ∈ episodeIds l) :
    ∃ row ∈ l, row.id = eid ∧ firstSeriesOf l eid = some row.seriesId := by
  obtain ⟨row, hrow, hid⟩ := List.mem_map.mp h
  cases hfind : l.find? fun row => row.id = eid with
  | none =>
      have hno := List.find?_eq_none.mp hfind row hrow
      simp [hid] at hno
  | some found =>
      have hfound := List.find?_some hfind
      exact ⟨found, List.mem_of_find?_eq_some hfind, by simpa using hfound,
        by simp [firstSeriesOf, hfind]⟩

/-- No file of the list has the id. -/
theorem firstOwnerOf_of_notMem {files : List CarriedFile} {fid : Int}
    (h : fid ∉ files.map CarriedFile.fileId) : firstOwnerOf files fid = none := by
  simp only [firstOwnerOf, Option.map_eq_none_iff, List.find?_eq_none, decide_eq_true_eq]
  intro f hf hid
  exact h (List.mem_map.mpr ⟨f, hf, hid⟩)

/-- A file of the list has an owner in it. -/
theorem firstOwnerOf_of_mem {files : List CarriedFile} {fid : Int}
    (h : fid ∈ files.map CarriedFile.fileId) :
    ∃ id ∈ files.map CarriedFile.ownerId, firstOwnerOf files fid = some id := by
  obtain ⟨f, hf, hid⟩ := List.mem_map.mp h
  cases hfind : files.find? fun f => f.fileId = fid with
  | none =>
      have hno := List.find?_eq_none.mp hfind f hf
      simp [hid] at hno
  | some found =>
      have hmem := List.mem_of_find?_eq_some hfind
      exact ⟨found.ownerId, List.mem_map_of_mem hmem, by simp [firstOwnerOf, hfind]⟩

/-- The owners of the files that episodes carry are among the episodes. -/
theorem ownerIds_episodeFilesOf (episodes : List EpisodePayload) :
    (episodeFilesOf episodes).map CarriedFile.ownerId ⊆ episodeIds episodes := by
  intro eid heid
  obtain ⟨f, hf, rfl⟩ := List.mem_map.mp heid
  obtain ⟨e, he, hcarried⟩ := List.mem_filterMap.mp hf
  obtain ⟨carried, _, rfl⟩ := Option.map_eq_some_iff.mp hcarried
  exact List.mem_map_of_mem he

/-- Likewise for movies. -/
theorem ownerIds_movieFilesOf (movies : List MoviePayload) :
    (movieFilesOf movies).map CarriedFile.ownerId ⊆ movies.map MoviePayload.id := by
  intro mid hmid
  obtain ⟨f, hf, rfl⟩ := List.mem_map.mp hmid
  obtain ⟨m, hm, hcarried⟩ := List.mem_filterMap.mp hf
  obtain ⟨carried, _, rfl⟩ := Option.map_eq_some_iff.mp hcarried
  exact List.mem_map_of_mem hm

/-- The owner of a fetched file is a fetched episode. -/
theorem exists_firstOwnerOf {l : List EpisodePayload} {fid : Int}
    (h : fid ∈ episodeFileIds l) :
    ∃ eid ∈ episodeIds l, firstOwnerOf (episodeFilesOf l) fid = some eid := by
  obtain ⟨eid, hmem, hfirst⟩ := firstOwnerOf_of_mem h
  exact ⟨eid, ownerIds_episodeFilesOf l hmem, hfirst⟩

end Lists

/-- A series Sonarr does not have is the new link of no answered episode. -/
theorem ServedChunk.filedUnder_deleted_iff {lib : SonarrLibrary} {chunk : SeriesRefetch}
    (hchunk : ServedChunk lib chunk) (link : Option Int) (eid : Int) :
    FiledUnder (link.or (firstSeriesOf chunk.episodes eid)) chunk.deleted ↔
      FiledUnder link chunk.deleted := by
  cases link with
  | some sid => simp
  | none =>
      rw [Option.none_or, iff_false_right (filedUnder_none _)]
      intro hfiled
      obtain ⟨sid, hsid, hfirst⟩ := hfiled
      by_cases heid : eid ∈ episodeIds chunk.episodes
      · obtain ⟨row, hrow, _, hseries⟩ := exists_firstSeriesOf heid
        rw [hseries] at hfirst
        obtain rfl := Option.some.inj hfirst
        exact hchunk.deleted _ hsid (hchunk.present _ (hchunk.episode_series row hrow))
      · rw [firstSeriesOf_of_notMem heid] at hfirst
        cases hfirst

/-! ## Rows across a run of chunks -/

section Run

variable (inst : String) (tag : WriteTag)

/-- **Links are settled by the first write.** -/
theorem seriesOf_ingestSeriesChunks (chunks : List SeriesRefetch) (s : WriteState Unit)
    (eid : Int) :
    (ingestSeriesChunks inst tag chunks s).wh.seriesOf inst eid =
      (s.wh.seriesOf inst eid).or (firstSeriesOf (fetchedEpisodes chunks) eid) := by
  unfold ingestSeriesChunks
  induction chunks generalizing s with
  | nil => simp [fetchedEpisodes, firstSeriesOf]
  | cons chunk rest ih =>
      rw [List.foldl_cons, ih, seriesOf_ingestSeriesChunk, fetchedEpisodes_cons,
        firstSeriesOf_append, Option.or_assoc]

/-- A file keeps its episode, and a new one gets that of its first owner. -/
theorem episodeOf_ingestSeriesChunks (chunks : List SeriesRefetch) (s : WriteState Unit)
    (fid : Int) :
    (ingestSeriesChunks inst tag chunks s).wh.episodeOf inst fid =
      (s.wh.episodeOf inst fid).or
        (firstOwnerOf (episodeFilesOf (fetchedEpisodes chunks)) fid) := by
  unfold ingestSeriesChunks
  induction chunks generalizing s with
  | nil => simp [fetchedEpisodes, episodeFilesOf, firstOwnerOf]
  | cons chunk rest ih =>
      rw [List.foldl_cons, ih, episodeOf_ingestSeriesChunk, fetchedEpisodes_cons,
        episodeFilesOf_append, firstOwnerOf_append, Option.or_assoc]

/-- An episode that no chunk answers keeps its series. -/
theorem seriesOf_of_unfetched {chunks : List SeriesRefetch} {eid : Int}
    (h : eid ∉ episodeIds (fetchedEpisodes chunks)) (s : WriteState Unit) :
    (ingestSeriesChunks inst tag chunks s).wh.seriesOf inst eid = s.wh.seriesOf inst eid := by
  rw [seriesOf_ingestSeriesChunks, firstSeriesOf_of_notMem h, Option.or_none]

/-- A file that no chunk answers keeps its episode. -/
theorem episodeOf_of_unfetched {chunks : List SeriesRefetch} {fid : Int}
    (h : fid ∉ episodeFileIds (fetchedEpisodes chunks)) (s : WriteState Unit) :
    (ingestSeriesChunks inst tag chunks s).wh.episodeOf inst fid = s.wh.episodeOf inst fid := by
  rw [episodeOf_ingestSeriesChunks, firstOwnerOf_of_notMem h, Option.or_none]

/-- An episode nobody fetched stays live unless its series was settled. -/
theorem isLive_episode_of_unfetched {chunks : List SeriesRefetch} {eid : Int}
    (h : eid ∉ episodeIds (fetchedEpisodes chunks)) (s : WriteState Unit) :
    (ingestSeriesChunks inst tag chunks s).wh.episode.isLive ⟨eid, inst⟩ = true ↔
      s.wh.episode.isLive ⟨eid, inst⟩ = true ∧
        ¬ FiledUnder (s.wh.seriesOf inst eid) (settledIds chunks) := by
  unfold ingestSeriesChunks
  induction chunks generalizing s with
  | nil => simp [settledIds]
  | cons chunk rest ih =>
      rw [fetchedEpisodes_cons, episodeIds_append, List.mem_append, not_or] at h
      have hlink : (ingestSeriesChunk inst tag chunk s).wh.seriesOf inst eid =
          s.wh.seriesOf inst eid := by
        rw [seriesOf_ingestSeriesChunk, firstSeriesOf_of_notMem h.1, Option.or_none]
      rw [List.foldl_cons, ih h.2, isLive_episode_ingestSeriesChunk, hlink, settledIds_cons,
        filedUnder_append, SeriesRefetch.ids, filedUnder_append]
      have hno := h.1
      tauto

/-- **A file nobody fetched** stays live unless its episode was fetched or its
series is gone.  That its series is present is not enough. -/
theorem isLive_file_of_unfetched {chunks : List SeriesRefetch} {fid : Int}
    (h : fid ∉ episodeFileIds (fetchedEpisodes chunks)) (s : WriteState Unit) :
    (ingestSeriesChunks inst tag chunks s).wh.episodeFile.isLive ⟨fid, inst⟩ = true ↔
      s.wh.episodeFile.isLive ⟨fid, inst⟩ = true ∧
        ∀ eid, s.wh.episodeOf inst fid = some eid →
          eid ∉ episodeIds (fetchedEpisodes chunks) ∧
            ¬ FiledUnder (s.wh.seriesOf inst eid) (deletedIds chunks) := by
  unfold ingestSeriesChunks
  induction chunks generalizing s with
  | nil => simp [fetchedEpisodes, episodeIds, deletedIds]
  | cons chunk rest ih =>
      rw [fetchedEpisodes_cons, episodeFileIds_append, List.mem_append, not_or] at h
      have hlink : (ingestSeriesChunk inst tag chunk s).wh.episodeOf inst fid =
          s.wh.episodeOf inst fid := by
        rw [episodeOf_ingestSeriesChunk, firstOwnerOf_of_notMem h.1, Option.or_none]
      rw [List.foldl_cons, ih h.2, isLive_file_ingestSeriesChunk, hlink, fetchedEpisodes_cons,
        episodeIds_append, deletedIds_cons]
      cases hepisode : s.wh.episodeOf inst fid with
      | none => simp [h.1]
      | some eid =>
          by_cases hfetched : eid ∈ episodeIds chunk.episodes
          · simp [h.1, hfetched]
          · have hseries : (ingestSeriesChunk inst tag chunk s).wh.seriesOf inst eid =
                s.wh.seriesOf inst eid := by
              rw [seriesOf_ingestSeriesChunk, firstSeriesOf_of_notMem hfetched, Option.or_none]
            simp only [Option.some.injEq, forall_eq', filedUnder_some, List.mem_append, hfetched,
              false_or, hseries, filedUnder_append, h.1, not_false_eq_true, and_true]
            tauto

/-- The chunks write within their instance's tables. -/
theorem ingestSeriesChunks_frame (chunks : List SeriesRefetch) (s : WriteState Unit) :
    SonarrFrame inst s.wh (ingestSeriesChunks inst tag chunks s).wh := by
  unfold ingestSeriesChunks
  induction chunks generalizing s with
  | nil => exact SonarrFrame.refl s.wh
  | cons chunk rest ih => exact (ingestSeriesChunk_frame inst tag chunk s).trans (ih _)

/-- The chunks before one, the one, and those after it. -/
theorem ingestSeriesChunks_split (pre post : List SeriesRefetch) (chunk : SeriesRefetch)
    (s : WriteState Unit) :
    ingestSeriesChunks inst tag (pre ++ chunk :: post) s =
      ingestSeriesChunks inst tag post
        (ingestSeriesChunk inst tag chunk (ingestSeriesChunks inst tag pre s)) := by
  simp [ingestSeriesChunks]

/-- An episode fetched by one chunk is live at the end unless its series went
with that chunk or was settled by a later one. -/
theorem isLive_episode_of_fetched {pre post : List SeriesRefetch} {chunk : SeriesRefetch}
    {eid : Int} (hfetched : eid ∈ episodeIds chunk.episodes)
    (hpost : eid ∉ episodeIds (fetchedEpisodes post)) (s : WriteState Unit) :
    (ingestSeriesChunks inst tag (pre ++ chunk :: post) s).wh.episode.isLive ⟨eid, inst⟩ = true ↔
      ¬ FiledUnder ((ingestSeriesChunks inst tag (pre ++ chunk :: post) s).wh.seriesOf inst eid)
        (chunk.deleted ++ settledIds post) := by
  rw [ingestSeriesChunks_split, isLive_episode_of_unfetched inst tag hpost,
    seriesOf_ingestSeriesChunks inst tag post, firstSeriesOf_of_notMem hpost, Option.or_none,
    isLive_episode_ingestSeriesChunk, filedUnder_append]
  tauto

/-- A file fetched by one chunk is live at the end unless its episode is
fetched later or the series of its episode went with that chunk or later. -/
theorem isLive_file_of_fetched {pre post : List SeriesRefetch} {chunk : SeriesRefetch}
    {fid eid : Int} (hfetched : fid ∈ episodeFileIds chunk.episodes)
    (hpost : fid ∉ episodeFileIds (fetchedEpisodes post)) (s : WriteState Unit)
    (hlink : (ingestSeriesChunks inst tag (pre ++ chunk :: post) s).wh.episodeOf inst fid =
      some eid) :
    (ingestSeriesChunks inst tag (pre ++ chunk :: post) s).wh.episodeFile.isLive ⟨fid, inst⟩ =
        true ↔
      eid ∉ episodeIds (fetchedEpisodes post) ∧
        ¬ FiledUnder ((ingestSeriesChunks inst tag (pre ++ chunk :: post) s).wh.seriesOf inst eid)
          (chunk.deleted ++ deletedIds post) := by
  rw [ingestSeriesChunks_split] at hlink ⊢
  rw [episodeOf_ingestSeriesChunks, firstOwnerOf_of_notMem hpost, Option.or_none] at hlink
  rw [isLive_file_of_unfetched inst tag hpost, hlink, isLive_file_ingestSeriesChunk, hlink,
    seriesOf_ingestSeriesChunks inst tag post, filedUnder_append]
  simp only [Option.some.injEq, forall_eq', hfetched, true_or, true_and]
  constructor
  · intro h
    obtain ⟨hgone, hunfetched, hlater⟩ := h
    rw [firstSeriesOf_of_notMem hunfetched, Option.or_none]
    exact ⟨hunfetched, fun hor => hor.elim hgone hlater⟩
  · intro h
    obtain ⟨hunfetched, hnone⟩ := h
    rw [firstSeriesOf_of_notMem hunfetched, Option.or_none] at hnone
    exact ⟨fun hg => hnone (Or.inl hg), hunfetched, fun hl => hnone (Or.inr hl)⟩

end Run

/-! ## Exactness -/

/-- What Sonarr's answers have in common: the chunks settle different series,
an episode belongs to the series it was listed for, and neither an episode
nor a file is answered by two chunks. -/
structure WellFetched (chunks : List SeriesRefetch) : Prop where
  ids_nodup : (settledIds chunks).Nodup
  episode_series : ∀ chunk ∈ chunks, ∀ e ∈ chunk.episodes,
    e.seriesId ∈ chunkSeriesIds chunk.present
  episode_once : chunks.Pairwise fun chunk chunk' =>
    ∀ eid ∈ episodeIds chunk.episodes, eid ∉ episodeIds chunk'.episodes
  file_once : chunks.Pairwise fun chunk chunk' =>
    ∀ fid ∈ episodeFileIds chunk.episodes, fid ∉ episodeFileIds chunk'.episodes

/-- **The refresh equals a full sync of the refetched series**: under them the
live episodes and the live files are the fetched ones, no row of another
series changes its flag, and other instances are left alone. -/
structure RefreshExact (inst : String) (chunks : List SeriesRefetch) (wh wh' : Warehouse) :
    Prop where
  episodes : ∀ eid, wh'.episode.isLive ⟨eid, inst⟩ = true ∧
    FiledUnder (wh'.seriesOf inst eid) (settledIds chunks) ↔
      eid ∈ episodeIds (fetchedEpisodes chunks)
  files : ∀ fid, wh'.episodeFile.isLive ⟨fid, inst⟩ = true ∧
    (∃ eid, wh'.episodeOf inst fid = some eid ∧
      FiledUnder (wh'.seriesOf inst eid) (settledIds chunks)) ↔
      fid ∈ episodeFileIds (fetchedEpisodes chunks)
  other_series : ∀ sid, sid ∉ settledIds chunks →
    wh'.series.isLive ⟨sid, inst⟩ = wh.series.isLive ⟨sid, inst⟩
  other_episodes : ∀ eid, ¬ FiledUnder (wh'.seriesOf inst eid) (settledIds chunks) →
    wh'.episode.isLive ⟨eid, inst⟩ = wh.episode.isLive ⟨eid, inst⟩
  other_files : ∀ fid, (∀ eid, wh'.episodeOf inst fid = some eid →
      ¬ FiledUnder (wh'.seriesOf inst eid) (settledIds chunks)) →
    wh'.episodeFile.isLive ⟨fid, inst⟩ = wh.episodeFile.isLive ⟨fid, inst⟩
  frame : SonarrFrame inst wh wh'

/-- A fetched episode on file is filed under a series of its own chunk that
Sonarr still has, or of an earlier chunk. -/
def EpisodeLinksInOrder (inst : String) (chunks : List SeriesRefetch) (wh : Warehouse) : Prop :=
  ∀ pre chunk post, chunks = pre ++ chunk :: post →
    ∀ eid ∈ episodeIds chunk.episodes, ∀ sid, wh.seriesOf inst eid = some sid →
      sid ∈ settledIds pre ++ chunkSeriesIds chunk.present

/-- A fetched file on file hangs on an episode no later chunk fetches; an
episode that was not fetched by then is filed under a refetched series that
Sonarr still has, or that an earlier chunk found gone. -/
def FileLinksInOrder (inst : String) (chunks : List SeriesRefetch) (wh : Warehouse) : Prop :=
  ∀ pre chunk post, chunks = pre ++ chunk :: post →
    ∀ fid ∈ episodeFileIds chunk.episodes, ∀ eid, wh.episodeOf inst fid = some eid →
      eid ∉ episodeIds (fetchedEpisodes post) ∧
        (eid ∉ episodeIds (fetchedEpisodes (pre ++ [chunk])) →
          FiledUnder (wh.seriesOf inst eid) (presentIds chunks ++ deletedIds pre))

/-- No live file that did not come back hangs on an episode that did not come
back from a series Sonarr still has. -/
def NoOrphanFiles (inst : String) (chunks : List SeriesRefetch) (wh : Warehouse) : Prop :=
  ∀ fid, fid ∉ episodeFileIds (fetchedEpisodes chunks) →
    wh.episodeFile.isLive ⟨fid, inst⟩ = true → ∀ eid, wh.episodeOf inst fid = some eid →
      eid ∉ episodeIds (fetchedEpisodes chunks) →
        ¬ FiledUnder (wh.seriesOf inst eid) (presentIds chunks)

/-- **When the refresh is exact**, in terms of the warehouse before it. -/
structure RefreshCondition (inst : String) (chunks : List SeriesRefetch) (wh : Warehouse) :
    Prop where
  episode_links : EpisodeLinksInOrder inst chunks wh
  file_links : FileLinksInOrder inst chunks wh
  no_orphans : NoOrphanFiles inst chunks wh

section Exact

variable (inst : String) (tag : WriteTag) {chunks : List SeriesRefetch} (s : WriteState Unit)

/-- An episode is fetched if one of the chunks answers it. -/
theorem mem_episodeIds_fetchedEpisodes {eid : Int} :
    eid ∈ episodeIds (fetchedEpisodes chunks) ↔
      ∃ chunk ∈ chunks, eid ∈ episodeIds chunk.episodes := by
  simp only [episodeIds, fetchedEpisodes, List.mem_map, List.mem_flatMap]
  constructor
  · intro h
    obtain ⟨e, ⟨chunk, hchunk, he⟩, hid⟩ := h
    exact ⟨chunk, hchunk, e, he, hid⟩
  · intro h
    obtain ⟨chunk, hchunk, e, he, hid⟩ := h
    exact ⟨e, ⟨chunk, hchunk, he⟩, hid⟩

/-- A file is fetched if one of the chunks answers it. -/
theorem mem_episodeFileIds_fetchedEpisodes {fid : Int} :
    fid ∈ episodeFileIds (fetchedEpisodes chunks) ↔
      ∃ chunk ∈ chunks, fid ∈ episodeFileIds chunk.episodes := by
  simp only [mem_episodeFileIds_iff, fetchedEpisodes, List.mem_flatMap]
  constructor
  · intro h
    obtain ⟨e, ⟨chunk, hchunk, he⟩, hfile⟩ := h
    exact ⟨chunk, hchunk, e, he, hfile⟩
  · intro h
    obtain ⟨chunk, hchunk, e, he, hfile⟩ := h
    exact ⟨e, ⟨chunk, hchunk, he⟩, hfile⟩

/-- What two runs of chunks settle is what each does. -/
theorem settledIds_append (l l' : List SeriesRefetch) :
    settledIds (l ++ l') = settledIds l ++ settledIds l' :=
  List.flatMap_append

/-- The series of two runs of chunks are those of each. -/
theorem presentIds_append (l l' : List SeriesRefetch) :
    presentIds (l ++ l') = presentIds l ++ presentIds l' :=
  List.flatMap_append

/-- The deletions of two runs of chunks are those of each. -/
theorem deletedIds_append (l l' : List SeriesRefetch) :
    deletedIds (l ++ l') = deletedIds l ++ deletedIds l' :=
  List.flatMap_append

/-- The episodes of two runs of chunks are those of each. -/
theorem fetchedEpisodes_append (l l' : List SeriesRefetch) :
    fetchedEpisodes (l ++ l') = fetchedEpisodes l ++ fetchedEpisodes l' :=
  List.flatMap_append

/-- The settled ids are the present ones and the deleted ones. -/
theorem mem_settledIds_iff {sid : Int} :
    sid ∈ settledIds chunks ↔ sid ∈ presentIds chunks ∨ sid ∈ deletedIds chunks := by
  induction chunks with
  | nil => simp [settledIds, presentIds, deletedIds]
  | cons chunk rest ih =>
      rw [settledIds_cons, presentIds_cons, deletedIds_cons, SeriesRefetch.ids]
      simp only [List.mem_append, ih]
      tauto

namespace WellFetched

variable {pre post : List SeriesRefetch} {chunk : SeriesRefetch}

/-- An episode of a chunk is answered by no later one. -/
theorem episode_notMem_post (h : WellFetched (pre ++ chunk :: post)) {eid : Int}
    (heid : eid ∈ episodeIds chunk.episodes) : eid ∉ episodeIds (fetchedEpisodes post) := by
  intro hpost
  obtain ⟨chunk', hchunk', heid'⟩ := mem_episodeIds_fetchedEpisodes.mp hpost
  have hpair := (List.pairwise_append.mp h.episode_once).2.1
  exact (List.pairwise_cons.mp hpair).1 chunk' hchunk' eid heid heid'

/-- A file of a chunk is answered by no later one. -/
theorem file_notMem_post (h : WellFetched (pre ++ chunk :: post)) {fid : Int}
    (hfid : fid ∈ episodeFileIds chunk.episodes) :
    fid ∉ episodeFileIds (fetchedEpisodes post) := by
  intro hpost
  obtain ⟨chunk', hchunk', hfid'⟩ := mem_episodeFileIds_fetchedEpisodes.mp hpost
  have hpair := (List.pairwise_append.mp h.file_once).2.1
  exact (List.pairwise_cons.mp hpair).1 chunk' hchunk' fid hfid hfid'

/-- An episode of a chunk is answered by no earlier one. -/
theorem episode_notMem_pre (h : WellFetched (pre ++ chunk :: post)) {eid : Int}
    (heid : eid ∈ episodeIds chunk.episodes) : eid ∉ episodeIds (fetchedEpisodes pre) := by
  intro hpre
  obtain ⟨chunk', hchunk', heid'⟩ := mem_episodeIds_fetchedEpisodes.mp hpre
  exact (List.pairwise_append.mp h.episode_once).2.2 chunk' hchunk' chunk List.mem_cons_self
    eid heid' heid

/-- A file of a chunk is answered by no earlier one. -/
theorem file_notMem_pre (h : WellFetched (pre ++ chunk :: post)) {fid : Int}
    (hfid : fid ∈ episodeFileIds chunk.episodes) :
    fid ∉ episodeFileIds (fetchedEpisodes pre) := by
  intro hpre
  obtain ⟨chunk', hchunk', hfid'⟩ := mem_episodeFileIds_fetchedEpisodes.mp hpre
  exact (List.pairwise_append.mp h.file_once).2.2 chunk' hchunk' chunk List.mem_cons_self
    fid hfid' hfid

/-- Where a link may point so that neither its own chunk's removals nor a
later chunk reach it. -/
theorem settled_iff (h : WellFetched (pre ++ chunk :: post)) {sid : Int} :
    sid ∈ settledIds (pre ++ chunk :: post) ∧ sid ∉ chunk.deleted ++ settledIds post ↔
      sid ∈ settledIds pre ++ chunkSeriesIds chunk.present := by
  have hnodup := h.ids_nodup
  rw [settledIds_append, settledIds_cons, SeriesRefetch.ids, List.nodup_append] at hnodup
  obtain ⟨_, hrest, hpre⟩ := hnodup
  rw [List.nodup_append, List.nodup_append] at hrest
  obtain ⟨⟨_, _, hown⟩, _, hpost⟩ := hrest
  rw [settledIds_append, settledIds_cons, SeriesRefetch.ids]
  simp only [List.mem_append] at hpre hpost ⊢
  constructor
  · intro hsid
    tauto
  · intro hsid
    rcases hsid with hsid | hsid
    · refine ⟨Or.inl hsid, fun hbad => ?_⟩
      rcases hbad with hbad | hbad
      · exact hpre sid hsid sid (Or.inl (Or.inr hbad)) rfl
      · exact hpre sid hsid sid (Or.inr hbad) rfl
    · refine ⟨Or.inr (Or.inl (Or.inl hsid)), fun hbad => ?_⟩
      rcases hbad with hbad | hbad
      · exact hown sid hsid sid hbad rfl
      · exact hpost sid (Or.inl hsid) sid hbad rfl

/-- No series is both present and gone. -/
theorem notMem_deletedIds (h : (settledIds chunks).Nodup) {sid : Int}
    (hsid : sid ∈ presentIds chunks) : sid ∉ deletedIds chunks := by
  induction chunks with
  | nil => simp [presentIds] at hsid
  | cons chunk rest ih =>
      rw [settledIds_cons, SeriesRefetch.ids, List.nodup_append, List.nodup_append] at h
      obtain ⟨⟨_, _, hown⟩, hrest, hdisj⟩ := h
      simp only [presentIds_cons, deletedIds_cons, List.mem_append] at hsid hdisj ⊢
      intro hbad
      rcases hsid with hsid | hsid
      · rcases hbad with hbad | hbad
        · exact hown sid hsid sid hbad rfl
        · exact hdisj sid (Or.inl hsid) sid (mem_settledIds_iff.mpr (Or.inr hbad)) rfl
      · rcases hbad with hbad | hbad
        · exact hdisj sid (Or.inr hbad) sid (mem_settledIds_iff.mpr (Or.inl hsid)) rfl
        · exact ih hrest hsid hbad

/-- Where the series of a file's episode may stand so that neither the file's
own chunk nor a later one removes the file with it. -/
theorem kept_iff (h : WellFetched (pre ++ chunk :: post)) {sid : Int} :
    sid ∈ settledIds (pre ++ chunk :: post) ∧ sid ∉ chunk.deleted ++ deletedIds post ↔
      sid ∈ presentIds (pre ++ chunk :: post) ++ deletedIds pre := by
  have hpresent : sid ∈ presentIds (pre ++ chunk :: post) →
      sid ∉ deletedIds (pre ++ chunk :: post) := notMem_deletedIds h.ids_nodup
  have hnodup := h.ids_nodup
  rw [settledIds_append, List.nodup_append] at hnodup
  have hdisj := hnodup.2.2
  rw [mem_settledIds_iff, List.mem_append (s := presentIds _)]
  rw [deletedIds_append, deletedIds_cons, List.mem_append (s := deletedIds pre)] at hpresent ⊢
  constructor
  · intro hsid
    tauto
  · intro hsid
    rcases hsid with hsid | hsid
    · exact ⟨Or.inl hsid, fun hbad => hpresent hsid (Or.inr hbad)⟩
    · refine ⟨Or.inr (Or.inl hsid), fun hbad => ?_⟩
      have hlater : sid ∈ settledIds (chunk :: post) := by
        rw [mem_settledIds_iff, deletedIds_cons]
        exact Or.inr hbad
      exact hdisj sid (mem_settledIds_iff.mpr (Or.inr hsid)) sid hlater rfl

end WellFetched

variable {pre post : List SeriesRefetch} {chunk : SeriesRefetch}

/-- The final link of a fetched episode: the one on file, else a series its
own chunk found present. -/
theorem seriesOf_fetched (hw : WellFetched (pre ++ chunk :: post)) {eid : Int}
    (heid : eid ∈ episodeIds chunk.episodes) :
    (∃ sid, s.wh.seriesOf inst eid = some sid ∧
      (ingestSeriesChunks inst tag (pre ++ chunk :: post) s).wh.seriesOf inst eid = some sid) ∨
    (s.wh.seriesOf inst eid = none ∧ ∃ sid ∈ chunkSeriesIds chunk.present,
      (ingestSeriesChunks inst tag (pre ++ chunk :: post) s).wh.seriesOf inst eid = some sid) := by
  rw [seriesOf_ingestSeriesChunks]
  cases hlink : s.wh.seriesOf inst eid with
  | some sid => exact Or.inl ⟨sid, rfl, rfl⟩
  | none =>
      obtain ⟨row, hrow, _, hfirst⟩ := exists_firstSeriesOf heid
      refine Or.inr ⟨rfl, row.seriesId, hw.episode_series chunk (by simp) row hrow, ?_⟩
      rw [fetchedEpisodes_append, fetchedEpisodes_cons, firstSeriesOf_append,
        firstSeriesOf_append, firstSeriesOf_of_notMem (hw.episode_notMem_pre heid), hfirst]
      rfl

/-- **Episodes.**  A fetched episode ends up live under a refetched series
exactly when its link on file, if any, agrees with the order of the chunks. -/
theorem episode_exact_iff (hw : WellFetched (pre ++ chunk :: post)) {eid : Int}
    (heid : eid ∈ episodeIds chunk.episodes) :
    (ingestSeriesChunks inst tag (pre ++ chunk :: post) s).wh.episode.isLive ⟨eid, inst⟩ = true ∧
      FiledUnder ((ingestSeriesChunks inst tag (pre ++ chunk :: post) s).wh.seriesOf inst eid)
        (settledIds (pre ++ chunk :: post)) ↔
      ∀ sid, s.wh.seriesOf inst eid = some sid →
        sid ∈ settledIds pre ++ chunkSeriesIds chunk.present := by
  rw [isLive_episode_of_fetched inst tag heid (hw.episode_notMem_post heid)]
  rcases seriesOf_fetched inst tag s hw heid with hlink | hlink
  · obtain ⟨sid, hbefore, hafter⟩ := hlink
    simp only [hbefore, hafter, filedUnder_some, Option.some.injEq, forall_eq']
    rw [and_comm]
    exact hw.settled_iff
  · obtain ⟨hbefore, sid, hsid, hafter⟩ := hlink
    simp only [hbefore, hafter, filedUnder_some, reduceCtorEq, false_implies, implies_true,
      iff_true]
    rw [and_comm]
    exact hw.settled_iff.mpr (List.mem_append_right _ hsid)

/-- Under the condition, a fetched episode is filed under a series of its own
chunk that Sonarr still has, or of an earlier chunk. -/
theorem link_of_fetched (hw : WellFetched (pre ++ chunk :: post))
    (horder : EpisodeLinksInOrder inst (pre ++ chunk :: post) s.wh) {eid : Int}
    (heid : eid ∈ episodeIds chunk.episodes) :
    ∃ sid ∈ settledIds pre ++ chunkSeriesIds chunk.present,
      (ingestSeriesChunks inst tag (pre ++ chunk :: post) s).wh.seriesOf inst eid = some sid := by
  rcases seriesOf_fetched inst tag s hw heid with hlink | hlink
  · obtain ⟨sid, hbefore, hafter⟩ := hlink
    exact ⟨sid, horder pre chunk post rfl eid heid sid hbefore, hafter⟩
  · obtain ⟨_, sid, hsid, hafter⟩ := hlink
    exact ⟨sid, List.mem_append_right _ hsid, hafter⟩

/-- An episode fetched by now is filed where no later removal reaches. -/
theorem filedUnder_of_fetched_by_now (hw : WellFetched (pre ++ chunk :: post))
    (horder : EpisodeLinksInOrder inst (pre ++ chunk :: post) s.wh) {eid : Int}
    (heid : eid ∈ episodeIds (fetchedEpisodes (pre ++ [chunk]))) :
    FiledUnder ((ingestSeriesChunks inst tag (pre ++ chunk :: post) s).wh.seriesOf inst eid)
      (presentIds (pre ++ chunk :: post) ++ deletedIds pre) := by
  obtain ⟨c, hc, heidc⟩ := mem_episodeIds_fetchedEpisodes.mp heid
  rcases List.mem_append.mp hc with hc | hc
  · obtain ⟨p, q, rfl⟩ := List.append_of_mem hc
    have hassoc : (p ++ c :: q) ++ chunk :: post = p ++ c :: (q ++ chunk :: post) := by simp
    rw [hassoc] at hw horder ⊢
    obtain ⟨sid, hsid, hlink⟩ := link_of_fetched inst tag s hw horder heidc
    rw [hlink, filedUnder_some]
    rw [presentIds_append, presentIds_cons, deletedIds_append]
    simp only [List.mem_append, mem_settledIds_iff] at hsid ⊢
    tauto
  · obtain rfl : c = chunk := by simpa using hc
    obtain ⟨sid, hsid, hlink⟩ := link_of_fetched inst tag s hw horder heidc
    rw [hlink, filedUnder_some]
    rw [presentIds_append, presentIds_cons]
    simp only [List.mem_append, mem_settledIds_iff] at hsid ⊢
    tauto

/-- **Files.**  With the episode links in order, a fetched file ends up live
under a refetched series exactly when its own link on file is in order. -/
theorem file_exact_iff (hw : WellFetched (pre ++ chunk :: post))
    (horder : EpisodeLinksInOrder inst (pre ++ chunk :: post) s.wh)
    {fid : Int} (hfid : fid ∈ episodeFileIds chunk.episodes) :
    (ingestSeriesChunks inst tag (pre ++ chunk :: post) s).wh.episodeFile.isLive ⟨fid, inst⟩ =
        true ∧
      (∃ eid, (ingestSeriesChunks inst tag (pre ++ chunk :: post) s).wh.episodeOf inst fid =
          some eid ∧
        FiledUnder ((ingestSeriesChunks inst tag (pre ++ chunk :: post) s).wh.seriesOf inst eid)
          (settledIds (pre ++ chunk :: post))) ↔
      ∀ eid, s.wh.episodeOf inst fid = some eid →
        eid ∉ episodeIds (fetchedEpisodes post) ∧
          (eid ∉ episodeIds (fetchedEpisodes (pre ++ [chunk])) →
            FiledUnder (s.wh.seriesOf inst eid)
              (presentIds (pre ++ chunk :: post) ++ deletedIds pre)) := by
  have hpost := hw.file_notMem_post hfid
  -- whatever the file is linked to, being kept comes down to two conditions on that episode
  have hkept : ∀ eid,
      (ingestSeriesChunks inst tag (pre ++ chunk :: post) s).wh.episodeOf inst fid = some eid →
      ((ingestSeriesChunks inst tag (pre ++ chunk :: post) s).wh.episodeFile.isLive ⟨fid, inst⟩ =
          true ∧
        (∃ eid, (ingestSeriesChunks inst tag (pre ++ chunk :: post) s).wh.episodeOf inst fid =
            some eid ∧
          FiledUnder ((ingestSeriesChunks inst tag (pre ++ chunk :: post) s).wh.seriesOf inst eid)
            (settledIds (pre ++ chunk :: post))) ↔
        eid ∉ episodeIds (fetchedEpisodes post) ∧
          FiledUnder ((ingestSeriesChunks inst tag (pre ++ chunk :: post) s).wh.seriesOf inst eid)
            (presentIds (pre ++ chunk :: post) ++ deletedIds pre)) := by
    intro eid hlink
    rw [isLive_file_of_fetched inst tag hfid hpost s hlink, hlink]
    simp only [Option.some.injEq, exists_eq_left']
    cases (ingestSeriesChunks inst tag (pre ++ chunk :: post) s).wh.seriesOf inst eid with
    | none => simp
    | some sid =>
        simp only [filedUnder_some]
        rw [← hw.kept_iff]
        tauto
  have hafter := episodeOf_ingestSeriesChunks inst tag (pre ++ chunk :: post) s fid
  cases hbefore : s.wh.episodeOf inst fid with
  | some eid =>
      rw [hbefore, Option.some_or] at hafter
      rw [hkept eid hafter]
      simp only [Option.some.injEq, forall_eq']
      by_cases hnow : eid ∈ episodeIds (fetchedEpisodes (pre ++ [chunk]))
      · have hfiled := filedUnder_of_fetched_by_now inst tag s hw horder hnow
        simp [hnow, hfiled]
      · have hsame : eid ∉ episodeIds (fetchedEpisodes post) →
            (ingestSeriesChunks inst tag (pre ++ chunk :: post) s).wh.seriesOf inst eid =
              s.wh.seriesOf inst eid := by
          intro hlater
          apply seriesOf_of_unfetched
          rw [List.append_cons, fetchedEpisodes_append, episodeIds_append,
            List.mem_append, not_or]
          exact ⟨hnow, hlater⟩
        constructor
        · intro h
          obtain ⟨hlater, hfiled⟩ := h
          exact ⟨hlater, fun _ => hsame hlater ▸ hfiled⟩
        · intro h
          obtain ⟨hlater, hfiled⟩ := h
          exact ⟨hlater, (hsame hlater).symm ▸ hfiled hnow⟩
  | none =>
      obtain ⟨eid, heid, hfirst⟩ := exists_firstOwnerOf hfid
      have hlink : (ingestSeriesChunks inst tag (pre ++ chunk :: post) s).wh.episodeOf inst fid =
          some eid := by
        rw [hafter, hbefore, fetchedEpisodes_append, fetchedEpisodes_cons, episodeFilesOf_append,
          episodeFilesOf_append, firstOwnerOf_append, firstOwnerOf_append,
          firstOwnerOf_of_notMem (hw.file_notMem_pre hfid), hfirst]
        rfl
      have hnow : eid ∈ episodeIds (fetchedEpisodes (pre ++ [chunk])) := by
        rw [mem_episodeIds_fetchedEpisodes]
        exact ⟨chunk, by simp, heid⟩
      rw [hkept eid hlink]
      simp only [reduceCtorEq, false_implies, implies_true, iff_true]
      exact ⟨hw.episode_notMem_post heid, filedUnder_of_fetched_by_now inst tag s hw horder hnow⟩

/-- A series that no chunk settles keeps its flag. -/
theorem isLive_series_of_unsettled {sid : Int} (h : sid ∉ settledIds chunks) :
    (ingestSeriesChunks inst tag chunks s).wh.series.isLive ⟨sid, inst⟩ =
      s.wh.series.isLive ⟨sid, inst⟩ := by
  unfold ingestSeriesChunks
  induction chunks generalizing s with
  | nil => rfl
  | cons chunk rest ih =>
      rw [settledIds_cons, SeriesRefetch.ids] at h
      simp only [List.mem_append, not_or] at h
      rw [List.foldl_cons, ih _ h.2, Bool.eq_iff_iff, isLive_series_ingestSeriesChunk]
      simp [h.1.1, h.1.2]

/-- Under refetched series the live episodes are the fetched ones. -/
theorem refresh_episodes (hw : WellFetched chunks)
    (horder : EpisodeLinksInOrder inst chunks s.wh) (eid : Int) :
    (ingestSeriesChunks inst tag chunks s).wh.episode.isLive ⟨eid, inst⟩ = true ∧
      FiledUnder ((ingestSeriesChunks inst tag chunks s).wh.seriesOf inst eid)
        (settledIds chunks) ↔ eid ∈ episodeIds (fetchedEpisodes chunks) := by
  constructor
  · intro h
    by_contra hun
    rw [isLive_episode_of_unfetched inst tag hun, seriesOf_of_unfetched inst tag hun] at h
    exact h.1.2 h.2
  · intro h
    obtain ⟨chunk, hchunk, heid⟩ := mem_episodeIds_fetchedEpisodes.mp h
    obtain ⟨pre, post, hsplit⟩ := List.append_of_mem hchunk
    subst hsplit
    exact (episode_exact_iff inst tag s hw heid).mpr (horder pre chunk post rfl eid heid)

/-- Under refetched series the live files are the fetched ones. -/
theorem refresh_files (hw : WellFetched chunks) (hcond : RefreshCondition inst chunks s.wh)
    (fid : Int) :
    (ingestSeriesChunks inst tag chunks s).wh.episodeFile.isLive ⟨fid, inst⟩ = true ∧
      (∃ eid, (ingestSeriesChunks inst tag chunks s).wh.episodeOf inst fid = some eid ∧
        FiledUnder ((ingestSeriesChunks inst tag chunks s).wh.seriesOf inst eid)
          (settledIds chunks)) ↔ fid ∈ episodeFileIds (fetchedEpisodes chunks) := by
  constructor
  · intro h
    by_contra hun
    obtain ⟨hlive, eid, hlink, hfiled⟩ := h
    rw [episodeOf_of_unfetched inst tag hun] at hlink
    rw [isLive_file_of_unfetched inst tag hun] at hlive
    obtain ⟨heid, hgone⟩ := hlive.2 eid hlink
    rw [seriesOf_of_unfetched inst tag heid] at hfiled
    obtain ⟨sid, hsid, hseries⟩ := hfiled
    rw [hseries, filedUnder_some] at hgone
    apply hcond.no_orphans fid hun hlive.1 eid hlink heid
    rw [hseries, filedUnder_some]
    exact (mem_settledIds_iff.mp hsid).resolve_right hgone
  · intro h
    obtain ⟨chunk, hchunk, hfid⟩ := mem_episodeFileIds_fetchedEpisodes.mp h
    obtain ⟨pre, post, hsplit⟩ := List.append_of_mem hchunk
    subst hsplit
    exact (file_exact_iff inst tag s hw hcond.episode_links hfid).mpr
      (hcond.file_links pre chunk post rfl fid hfid)

/-- An episode of another series keeps its flag. -/
theorem refresh_other_episodes (hw : WellFetched chunks)
    (horder : EpisodeLinksInOrder inst chunks s.wh) {eid : Int}
    (hother : ¬ FiledUnder ((ingestSeriesChunks inst tag chunks s).wh.seriesOf inst eid)
      (settledIds chunks)) :
    (ingestSeriesChunks inst tag chunks s).wh.episode.isLive ⟨eid, inst⟩ =
      s.wh.episode.isLive ⟨eid, inst⟩ := by
  have hun : eid ∉ episodeIds (fetchedEpisodes chunks) := fun h =>
    hother ((refresh_episodes inst tag s hw horder eid).mpr h).2
  rw [seriesOf_of_unfetched inst tag hun] at hother
  rw [Bool.eq_iff_iff, isLive_episode_of_unfetched inst tag hun]
  exact and_iff_left hother

/-- A file of another series keeps its flag. -/
theorem refresh_other_files (hw : WellFetched chunks) (hcond : RefreshCondition inst chunks s.wh)
    {fid : Int}
    (hother : ∀ eid, (ingestSeriesChunks inst tag chunks s).wh.episodeOf inst fid = some eid →
      ¬ FiledUnder ((ingestSeriesChunks inst tag chunks s).wh.seriesOf inst eid)
        (settledIds chunks)) :
    (ingestSeriesChunks inst tag chunks s).wh.episodeFile.isLive ⟨fid, inst⟩ =
      s.wh.episodeFile.isLive ⟨fid, inst⟩ := by
  have hun : fid ∉ episodeFileIds (fetchedEpisodes chunks) := by
    intro h
    obtain ⟨_, eid, hlink, hfiled⟩ := (refresh_files inst tag s hw hcond fid).mpr h
    exact hother eid hlink hfiled
  rw [episodeOf_of_unfetched inst tag hun] at hother
  rw [Bool.eq_iff_iff, isLive_file_of_unfetched inst tag hun]
  apply and_iff_left
  intro eid hlink
  have heid : eid ∉ episodeIds (fetchedEpisodes chunks) := fun h =>
    hother eid hlink ((refresh_episodes inst tag s hw hcond.episode_links eid).mpr h).2
  refine ⟨heid, fun hgone => hother eid hlink ?_⟩
  obtain ⟨sid, hsid, hseries⟩ := hgone
  rw [seriesOf_of_unfetched inst tag heid, hseries, filedUnder_some]
  exact mem_settledIds_iff.mpr (Or.inr hsid)

/-- An exact refresh met no live file on a vanished episode. -/
theorem noOrphanFiles_of_exact (hw : WellFetched chunks)
    (hexact : RefreshExact inst chunks s.wh (ingestSeriesChunks inst tag chunks s).wh) :
    NoOrphanFiles inst chunks s.wh := by
  intro fid hfid hlive eid hlink heid hpresent
  obtain ⟨sid, hsid, hseries⟩ := hpresent
  apply hfid
  apply (hexact.files fid).mp
  refine ⟨?_, eid, by rw [episodeOf_of_unfetched inst tag hfid, hlink], ?_⟩
  · rw [isLive_file_of_unfetched inst tag hfid, hlink]
    refine ⟨hlive, ?_⟩
    intro eid' heq
    obtain rfl := Option.some.inj heq
    rw [hseries, filedUnder_some]
    exact ⟨heid, WellFetched.notMem_deletedIds hw.ids_nodup hsid⟩
  · rw [seriesOf_of_unfetched inst tag heid, hseries, filedUnder_some, mem_settledIds_iff]
    exact Or.inl hsid

/-- **The refresh is exact if and only if the links on file are in order and
no live file hangs on a vanished episode.** -/
theorem refreshExact_iff (hw : WellFetched chunks) :
    RefreshExact inst chunks s.wh (ingestSeriesChunks inst tag chunks s).wh ↔
      RefreshCondition inst chunks s.wh := by
  constructor
  · intro hexact
    have horder : EpisodeLinksInOrder inst chunks s.wh := by
      intro pre chunk post hsplit eid heid
      subst hsplit
      rw [← episode_exact_iff inst tag s hw heid]
      exact (hexact.episodes eid).mpr
        (mem_episodeIds_fetchedEpisodes.mpr ⟨chunk, by simp, heid⟩)
    refine ⟨horder, ?_, noOrphanFiles_of_exact inst tag s hw hexact⟩
    intro pre chunk post hsplit fid hfid
    subst hsplit
    rw [← file_exact_iff inst tag s hw horder hfid]
    exact (hexact.files fid).mpr
      (mem_episodeFileIds_fetchedEpisodes.mpr ⟨chunk, by simp, hfid⟩)
  · intro hcond
    exact {
      episodes := refresh_episodes inst tag s hw hcond.episode_links
      files := refresh_files inst tag s hw hcond
      other_series := fun _ hsid => isLive_series_of_unsettled inst tag s hsid
      other_episodes := fun _ h => refresh_other_episodes inst tag s hw hcond.episode_links h
      other_files := fun _ h => refresh_other_files inst tag s hw hcond h
      frame := ingestSeriesChunks_frame inst tag chunks s }

end Exact

/-! ## The run against a library -/

section Library

variable {lib : SonarrLibrary}

/-- The chunks of a run whose history names the given series. -/
def SonarrLibrary.refetches (lib : SonarrLibrary) (size : ℕ+) (events : List HistoryEvent) :
    List SeriesRefetch :=
  (slices size (changedIds HistoryEvent.seriesId events)).map lib.refetch

/-- A chunk settles the ids it asked for. -/
theorem ids_refetch_perm (chunkIds : List Int) : (lib.refetch chunkIds).ids.Perm chunkIds := by
  have hparts := List.filter_append_perm (fun sid => decide (lib.find sid ≠ none)) chunkIds
  rw [SeriesRefetch.ids, lib.chunkSeriesIds_refetch]
  simpa [SonarrLibrary.refetch] using hparts

/-- A library settles every id that it is asked about. -/
theorem settledIds_refetch_perm (parts : List (List Int)) :
    (settledIds (parts.map lib.refetch)).Perm parts.flatten := by
  induction parts with
  | nil => exact List.Perm.refl _
  | cons part rest ih =>
      rw [List.map_cons, settledIds_cons, List.flatten_cons]
      exact (ids_refetch_perm part).append ih

/-- What a library answers is well formed. -/
theorem wellFetched_refetch {parts : List (List Int)} (hnodup : parts.flatten.Nodup) :
    WellFetched (parts.map lib.refetch) := by
  have hparts := (List.nodup_flatten.mp hnodup).2
  refine ⟨(settledIds_refetch_perm parts).nodup_iff.mpr hnodup, ?_, ?_, ?_⟩
  · intro chunk hchunk e he
    obtain ⟨part, _, rfl⟩ := List.mem_map.mp hchunk
    exact (lib.servedChunk_refetch part).episode_series e he
  · rw [List.pairwise_map]
    refine hparts.imp fun hdisj eid heid heid' => ?_
    obtain ⟨sid, hsid, hmem⟩ := lib.mem_episodeIds_refetch_iff.mp heid
    obtain ⟨sid', hsid', hmem'⟩ := lib.mem_episodeIds_refetch_iff.mp heid'
    obtain rfl := lib.episode_once sid sid' eid hmem hmem'
    exact hdisj hsid hsid'
  · rw [List.pairwise_map]
    refine hparts.imp fun hdisj fid hfid hfid' => ?_
    obtain ⟨sid, hsid, hmem⟩ := lib.mem_episodeFileIds_refetch_iff.mp hfid
    obtain ⟨sid', hsid', hmem'⟩ := lib.mem_episodeFileIds_refetch_iff.mp hfid'
    obtain rfl := lib.file_once sid sid' fid hmem hmem'
    exact hdisj hsid hsid'

/-- The answers of one library are well fetched. -/
theorem wellFetched_refetches (size : ℕ+) (events : List HistoryEvent) :
    WellFetched (lib.refetches size events) := by
  apply wellFetched_refetch
  rw [flatten_slices]
  exact changedIds_nodup _ _

/-- What is fetched are the episodes of the series that the events name. -/
theorem mem_fetchedEpisodes_refetches_iff {size : ℕ+} {events : List HistoryEvent}
    {e : EpisodePayload} :
    e ∈ fetchedEpisodes (lib.refetches size events) ↔
      ∃ sid ∈ changedIds HistoryEvent.seriesId events, e ∈ lib.episodes sid := by
  simp only [fetchedEpisodes, SonarrLibrary.refetches, List.flatMap_map, List.mem_flatMap,
    lib.mem_episodes_refetch_iff]
  constructor
  · intro h
    obtain ⟨part, hpart, sid, hsid, he⟩ := h
    exact ⟨sid, mem_slices_iff.mp ⟨part, hpart, hsid⟩, he⟩
  · intro h
    obtain ⟨sid, hsid, he⟩ := h
    obtain ⟨part, hpart, hmem⟩ := mem_slices_iff.mpr hsid
    exact ⟨part, hpart, sid, hmem, he⟩

/-- What is present are the series named that the library has. -/
theorem mem_presentIds_refetches_iff {size : ℕ+} {events : List HistoryEvent} {sid : Int} :
    sid ∈ presentIds (lib.refetches size events) ↔
      sid ∈ changedIds HistoryEvent.seriesId events ∧ sid ∈ lib.seriesIds := by
  simp only [presentIds, SonarrLibrary.refetches, List.flatMap_map, List.mem_flatMap,
    lib.mem_present_refetch_iff]
  constructor
  · intro h
    obtain ⟨part, hpart, hsid, hlib⟩ := h
    exact ⟨mem_slices_iff.mp ⟨part, hpart, hsid⟩, hlib⟩
  · intro h
    obtain ⟨part, hpart, hmem⟩ := mem_slices_iff.mpr h.1
    exact ⟨part, hpart, hmem, h.2⟩

/-- An uninterrupted ingest is its chunks one after the other. -/
theorem ingestSonarrHistoryChanges_of_answers {client : SonarrClient} (hans : client.Answers lib)
    (inst : String) (tag : WriteTag) (events : List HistoryEvent) (wh : Warehouse) :
    (ingestSonarrHistoryChanges client (fun _ => false) inst tag events wh).state =
      ingestSeriesChunks inst tag
        (lib.refetches (fetchChunkSize client.maxParallelRequests) events) ⟨wh, (), 0⟩ := by
  unfold ingestSonarrHistoryChanges
  rw [chunkLoop_ok (fun chunkIds s => ingestSeriesChunk inst tag (lib.refetch chunkIds) s)]
  · rw [ingestSeriesChunks, SonarrLibrary.refetches, List.foldl_map]
  · intro chunkIds _ s
    rw [fetchSeriesChunk_of_answers hans]
    rfl
  · exact fun _ _ _ => rfl

/-- **The incremental run equals the full sync of what it refetched, if and
only if the refresh condition holds of the warehouse it starts from.** -/
theorem incremental_refresh_exact_iff {client : SonarrClient} (hans : client.Answers lib)
    (inst : String) (tag : WriteTag) (events : List HistoryEvent) (wh : Warehouse) :
    RefreshExact inst (lib.refetches (fetchChunkSize client.maxParallelRequests) events) wh
        (ingestSonarrHistoryChanges client (fun _ => false) inst tag events wh).state.wh ↔
      RefreshCondition inst (lib.refetches (fetchChunkSize client.maxParallelRequests) events)
        wh := by
  rw [ingestSonarrHistoryChanges_of_answers hans]
  exact refreshExact_iff inst tag ⟨wh, (), 0⟩ (wellFetched_refetches _ events)

/-- The links on file are the library's, as far as the library has the episode or
the file. -/
structure LinksKept (inst : String) (lib : SonarrLibrary) (wh : Warehouse) : Prop where
  episodes : ∀ sid, ∀ eid ∈ episodeIds (lib.episodes sid), ∀ sid',
    wh.seriesOf inst eid = some sid' →
    sid' = sid
  files : ∀ sid, ∀ fid ∈ episodeFileIds (lib.episodes sid), ∀ eid,
    wh.episodeOf inst fid = some eid →
    eid ∈ episodeIds (lib.episodes sid)

/-- **Whatever the history names**, the condition holds where the links on file
are the library's and no live file that went hangs on an episode that went from
a series Sonarr still has. -/
theorem refreshCondition_of_linksKept {inst : String} {wh : Warehouse}
    (hlinks : LinksKept inst lib wh)
    (hgone : ∀ fid eid, wh.episodeFile.isLive ⟨fid, inst⟩ = true →
      wh.episodeOf inst fid = some eid →
      lib.HasFile fid ∨ lib.HasEpisode eid ∨ ¬ FiledUnder (wh.seriesOf inst eid) lib.seriesIds)
    (size : ℕ+) (events : List HistoryEvent) :
    RefreshCondition inst (lib.refetches size events) wh where
  episode_links := by
    intro pre chunk post hsplit eid heid sid hlink
    obtain ⟨part, -, rfl⟩ := List.mem_map.mp (hsplit ▸ List.mem_append_cons_self :
      chunk ∈ lib.refetches size events)
    obtain ⟨own, hown, heid⟩ := lib.mem_episodeIds_refetch_iff.mp heid
    obtain rfl := hlinks.episodes own eid heid sid hlink
    obtain ⟨e, he, -⟩ := List.mem_map.mp heid
    exact List.mem_append_right _
      (lib.mem_present_refetch_iff.mpr ⟨hown, lib.mem_seriesIds_of_mem_episodes he⟩)
  file_links := by
    intro pre chunk post hsplit fid hfid eid hlink
    have hw : WellFetched (lib.refetches size events) := wellFetched_refetches size events
    obtain ⟨part, -, rfl⟩ := List.mem_map.mp (hsplit ▸ List.mem_append_cons_self :
      chunk ∈ lib.refetches size events)
    obtain ⟨own, hown, hfile⟩ := lib.mem_episodeFileIds_refetch_iff.mp hfid
    have heid := lib.mem_episodeIds_refetch_iff.mpr
      ⟨own, hown, hlinks.files own fid hfile eid hlink⟩
    refine ⟨(hsplit ▸ hw : WellFetched _).episode_notMem_post heid, fun hun => absurd ?_ hun⟩
    exact mem_episodeIds_fetchedEpisodes.mpr ⟨_, List.mem_append_right _ List.mem_cons_self, heid⟩
  no_orphans := by
    intro fid hun hlive eid hlink heid hfiled
    obtain ⟨sid, hsid, hseries⟩ := hfiled
    obtain ⟨hchanged, hlib⟩ := mem_presentIds_refetches_iff.mp hsid
    have hfetched : ∀ own, eid ∈ episodeIds (lib.episodes own) → own = sid →
        eid ∈ episodeIds (fetchedEpisodes (lib.refetches size events)) := by
      rintro own hown rfl
      obtain ⟨e, he, rfl⟩ := List.mem_map.mp hown
      exact List.mem_map_of_mem (mem_fetchedEpisodes_refetches_iff.mpr ⟨own, hchanged, he⟩)
    rcases hgone fid eid hlive hlink with ⟨own, hfile⟩ | ⟨own, hown⟩ | hother
    · have hown := hlinks.files own fid hfile eid hlink
      exact heid (hfetched own hown (hlinks.episodes own eid hown sid hseries).symm)
    · exact heid (hfetched own hown (hlinks.episodes own eid hown sid hseries).symm)
    · exact hother ⟨sid, hlib, hseries⟩

end Library

/-! ### A vanished episode

Series 1 is refetched and no longer lists episode 11, whose file 21 is on
file and live.  The episode goes, its file stays. -/

/-- Sonarr has series 1, without episodes. -/
def emptiedLibrary : SonarrLibrary where
  series := [{ id := 1 }]
  episodes := fun _ => []
  series_nodup := by simp
  series_id_ne_zero := by simp
  episodes_absent := fun _ _ => rfl
  episode_series := fun _ _ h => nomatch h
  episode_id_ne_zero := fun _ _ h => nomatch h
  episode_nodup := fun _ => List.nodup_nil
  episode_once := fun _ _ _ h => nomatch h
  file_once := fun _ _ _ h => nomatch h

/-- The warehouse still has its episode 11 with file 21. -/
def familyWarehouse : Warehouse :=
  { Warehouse.empty with
    series := upsertSeries KeyedTable.empty "default" { id := 1 } ⟨0, "full", String.toLower⟩
    episode := upsertEpisode KeyedTable.empty "default" { id := 11, seriesId := 1 }
      ⟨0, "full", String.toLower⟩
    episodeFile :=
      upsertEpisodeFile KeyedTable.empty "default" 11 21 {} ⟨0, "full", String.toLower⟩ }

/-- An emptied library answers no episode. -/
theorem fetchedEpisodes_emptiedLibrary (size : ℕ+) (events : List HistoryEvent) :
    fetchedEpisodes (emptiedLibrary.refetches size events) = [] := by
  rw [List.eq_nil_iff_forall_not_mem]
  intro e he
  obtain ⟨sid, _, hmem⟩ := mem_fetchedEpisodes_refetches_iff.mp he
  cases hmem

/-- The file of an episode that vanished stays live after the refresh. -/
theorem vanished_episode_keeps_file :
    ¬ RefreshExact "default"
      (emptiedLibrary.refetches (fetchChunkSize none) [{ seriesId := some 1 }]) familyWarehouse
      (ingestSonarrHistoryChanges emptiedLibrary.client (fun _ => false) "default"
        ⟨1, "incremental", String.toLower⟩ [{ seriesId := some 1 }] familyWarehouse).state.wh := by
  intro hexact
  rw [ingestSonarrHistoryChanges_of_answers emptiedLibrary.client_answers] at hexact
  have horphans :=
    noOrphanFiles_of_exact "default" ⟨1, "incremental", String.toLower⟩ ⟨familyWarehouse, (), 0⟩
    (wellFetched_refetches _ _) hexact
  have hpresent : (1 : Int) ∈ presentIds
      (emptiedLibrary.refetches (fetchChunkSize none) [{ seriesId := some 1 }]) := by
    rw [mem_presentIds_refetches_iff, mem_changedIds_iff]
    exact ⟨⟨by decide, _, List.mem_cons_self, rfl⟩, by decide⟩
  have hnone := fetchedEpisodes_emptiedLibrary (fetchChunkSize none) [{ seriesId := some 1 }]
  apply horphans 21 (by simp [hnone, episodeFileIds, episodeFilesOf])
    (by simp [familyWarehouse]) 11 (by decide) (by simp [hnone, episodeIds])
  have hlink : familyWarehouse.seriesOf "default" 11 = some 1 := by decide
  rw [hlink, filedUnder_some]
  exact hpresent

/-! ### Two series that grew and one that went

Series 1 has a second file, series 2 is new, and series 3 is gone. -/

def grownEpisodes : List EpisodePayload :=
  [{ id := 11, seriesId := 1, episodeFile := some { id := some 21 } },
    { id := 12, seriesId := 1, episodeFile := some { id := some 22 } },
    { id := 13, seriesId := 2, episodeFile := some { id := some 23 } }, { id := 14, seriesId := 2 }]

def grownLibrary : SonarrLibrary :=
  .ofLists [{ id := 1 }, { id := 2 }] grownEpisodes (by decide) (by decide) (by decide) (by decide)
    (by decide)

/-- One request at a time, and so two series to a chunk. -/
def grownClient : SonarrClient := { grownLibrary.client with maxParallelRequests := some 1 }

/-- The client answers from the library that grew. -/
theorem grownClient_answers : grownClient.Answers grownLibrary :=
  ⟨grownLibrary.client_answers.list, grownLibrary.client_answers.get,
    grownLibrary.client_answers.episodes⟩

/-- What Sonarr had before. -/
def earlierSeries : List FetchedSeries :=
  [({ id := 1 }, [{ id := 11, seriesId := 1, episodeFile := some { id := some 21 } }]),
    ({ id := 3 }, [{ id := 31, seriesId := 3, episodeFile := some { id := some 41 } }])]

/-- The warehouse of then. -/
def laggingWarehouse : Warehouse :=
  (writeSonarrChunk "default" ⟨0, "full", String.toLower⟩ earlierSeries ⟨Warehouse.empty, {}, 0⟩).wh

/-- The two episodes on file and their series. -/
theorem seriesOf_laggingWarehouse {eid sid : Int}
    (h : laggingWarehouse.seriesOf "default" eid = some sid) :
    eid = 11 ∧ sid = 1 ∨ eid = 31 ∧ sid = 3 := by
  have hfirst : laggingWarehouse.seriesOf "default" eid =
      firstSeriesOf (chunkEpisodes earlierSeries) eid := by
    simp only [laggingWarehouse, writeSonarrChunk_eq, Warehouse.seriesOf, seriesLink_upsertEpisodes]
    rfl
  rw [hfirst] at h
  obtain ⟨e, hfind, rfl⟩ := Option.map_eq_some_iff.mp h
  have hid := List.find?_some hfind
  obtain rfl : e.id = eid := of_decide_eq_true hid
  have hall : ∀ e ∈ chunkEpisodes earlierSeries,
      e.id = 11 ∧ e.seriesId = 1 ∨ e.id = 31 ∧ e.seriesId = 3 := by decide
  exact hall e (List.mem_of_find?_eq_some hfind)

/-- The two files on file and their episodes. -/
theorem episodeOf_laggingWarehouse {fid eid : Int}
    (h : laggingWarehouse.episodeOf "default" fid = some eid) :
    fid = 21 ∧ eid = 11 ∨ fid = 41 ∧ eid = 31 := by
  have hfirst : laggingWarehouse.episodeOf "default" fid =
      firstOwnerOf (episodeFilesOf (chunkEpisodes earlierSeries)) fid := by
    simp only [laggingWarehouse, writeSonarrChunk_eq, Warehouse.episodeOf,
      episodeLink_upsertEpisodeFiles]
    rfl
  rw [hfirst] at h
  obtain ⟨f, hfind, rfl⟩ := Option.map_eq_some_iff.mp h
  have hid := List.find?_some hfind
  obtain rfl : f.fileId = fid := of_decide_eq_true hid
  have hall : ∀ f ∈ episodeFilesOf (chunkEpisodes earlierSeries),
      f.fileId = 21 ∧ f.ownerId = 11 ∨ f.fileId = 41 ∧ f.ownerId = 31 := by decide
  exact hall f (List.mem_of_find?_eq_some hfind)

/-- The history names all three. -/
def threeNamed : List HistoryEvent :=
  [{ seriesId := some 1 }, { seriesId := some 2 }, { seriesId := some 3 }]

/-- The library moved neither an episode nor a file that is on file. -/
theorem grownLibrary_linksKept : LinksKept "default" grownLibrary laggingWarehouse where
  episodes := by
    intro sid eid heid sid' hlink
    obtain ⟨e, he, rfl⟩ := List.mem_map.mp heid
    obtain ⟨hmem, hsid⟩ := List.mem_filter.mp he
    rw [← of_decide_eq_true hsid]
    rcases seriesOf_laggingWarehouse hlink with ⟨hid, rfl⟩ | ⟨hid, rfl⟩
    · have hall : ∀ e ∈ grownEpisodes, e.id = 11 → 1 = e.seriesId := by decide
      exact hall e hmem hid
    · have hall : ∀ e ∈ grownEpisodes, e.id ≠ 31 := by decide
      exact absurd hid (hall e hmem)
  files := by
    intro sid fid hfid eid hlink
    obtain ⟨e, he, file, hfile⟩ := mem_episodeFileIds_iff.mp hfid
    have hmem := (List.mem_filter.mp he).1
    have hcarried : e.carriedFile.map Prod.fst = some fid := by rw [hfile, Option.map_some]
    rcases episodeOf_laggingWarehouse hlink with ⟨rfl, rfl⟩ | ⟨rfl, rfl⟩
    · have hall : ∀ e ∈ grownEpisodes, e.carriedFile.map Prod.fst = some 21 → e.id = 11 := by decide
      exact hall e hmem hcarried ▸ List.mem_map_of_mem he
    · have hall : ∀ e ∈ grownEpisodes, e.carriedFile.map Prod.fst ≠ some 41 := by decide
      exact absurd hcarried (hall e hmem)

/-- Three series named over rows on file: one grew, one went, one is new. -/
theorem incremental_refresh_exact_grown :
    RefreshExact "default"
      (grownLibrary.refetches (fetchChunkSize grownClient.maxParallelRequests) threeNamed)
      laggingWarehouse
      (ingestSonarrHistoryChanges grownClient (fun _ => false) "default"
        ⟨1, "incremental", String.toLower⟩
        threeNamed laggingWarehouse).state.wh := by
  apply (incremental_refresh_exact_iff grownClient_answers "default"
    ⟨1, "incremental", String.toLower⟩ threeNamed
    laggingWarehouse).mpr
  apply refreshCondition_of_linksKept grownLibrary_linksKept
  intro fid eid _ hlink
  rcases episodeOf_laggingWarehouse hlink with ⟨rfl, rfl⟩ | ⟨rfl, rfl⟩
  · exact Or.inl ⟨1, by decide⟩
  · refine Or.inr (Or.inr ?_)
    rintro ⟨sid, hsid, hseries⟩
    rcases seriesOf_laggingWarehouse hseries with ⟨hid, -⟩ | ⟨-, rfl⟩
    · cases hid
    · revert hsid
      decide

end Nebularr
