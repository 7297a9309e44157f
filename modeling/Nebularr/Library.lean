import Nebularr.IncrementalSync

/-!
# What an Arr holds

The reference against which a sync is judged: the library of a Sonarr or a
Radarr, with the facts both applications keep about their own ids as fields.
Ids are unique per kind, an episode belongs to one series, and a file belongs
to one series (several episodes of it may share it) or one movie.  A client
`Answers` a library when its calls return what the library holds.
-/

namespace Nebularr

/-- A Sonarr library. -/
structure SonarrLibrary where
  series : List SeriesPayload
  episodes : Int → List EpisodePayload
  series_nodup : (series.map SeriesPayload.id).Nodup
  series_id_ne_zero : ∀ row ∈ series, row.id ≠ 0
  episodes_absent : ∀ sid, sid ∉ series.map SeriesPayload.id → episodes sid = []
  episode_series : ∀ sid, ∀ e ∈ episodes sid, e.seriesId = sid
  episode_id_ne_zero : ∀ sid, ∀ e ∈ episodes sid, e.id ≠ 0
  episode_nodup : ∀ sid, ((episodes sid).map EpisodePayload.id).Nodup
  episode_once : ∀ sid sid' eid, eid ∈ episodeIds (episodes sid) →
    eid ∈ episodeIds (episodes sid') → sid = sid'
  file_once : ∀ sid sid' fid, fid ∈ episodeFileIds (episodes sid) →
    fid ∈ episodeFileIds (episodes sid') → sid = sid'

/-- A Radarr library. -/
structure RadarrLibrary where
  movies : List MoviePayload
  movie_nodup : (movies.map MoviePayload.id).Nodup
  movie_id_ne_zero : ∀ row ∈ movies, row.id ≠ 0
  file_once : ∀ m ∈ movies, ∀ m' ∈ movies, ∀ fid file file',
    m.carriedFile = some (fid, file) → m'.carriedFile = some (fid, file') → m.id = m'.id

namespace SonarrLibrary

variable (lib : SonarrLibrary)

def seriesIds : List Int := lib.series.map SeriesPayload.id

/-- The series with an id, as `GET /series/{id}` finds it. -/
def find (sid : Int) : Option SeriesPayload := lib.series.find? fun row => row.id = sid

/-- Every episode of the library. -/
def allEpisodes : List EpisodePayload := lib.series.flatMap fun row => lib.episodes row.id

/-- Sonarr has the episode. -/
def HasEpisode (eid : Int) : Prop := ∃ sid, eid ∈ episodeIds (lib.episodes sid)

/-- Sonarr has the episode file. -/
def HasFile (fid : Int) : Prop := ∃ sid, fid ∈ episodeFileIds (lib.episodes sid)

/-- An id is not found if the library does not have it. -/
theorem find_eq_none_iff {sid : Int} : lib.find sid = none ↔ sid ∉ lib.seriesIds := by
  simp [find, seriesIds, List.find?_eq_none]

/-- What is found under an id has that id. -/
theorem id_of_find_eq_some {sid : Int} {row : SeriesPayload} (h : lib.find sid = some row) :
    row.id = sid := by
  have hfound := List.find?_some h
  simpa using hfound

/-- What is found is in the library. -/
theorem mem_of_find_eq_some {sid : Int} {row : SeriesPayload} (h : lib.find sid = some row) :
    row ∈ lib.series :=
  List.mem_of_find?_eq_some h

/-- A series that lists an episode is in the library. -/
theorem mem_seriesIds_of_mem_episodes {sid : Int} {e : EpisodePayload}
    (h : e ∈ lib.episodes sid) : sid ∈ lib.seriesIds := by
  by_contra habsent
  rw [lib.episodes_absent sid habsent] at h
  cases h

/-- An episode is one of all if it is listed for its series. -/
theorem mem_allEpisodes_iff {e : EpisodePayload} :
    e ∈ lib.allEpisodes ↔ e ∈ lib.episodes e.seriesId := by
  simp only [allEpisodes, List.mem_flatMap]
  constructor
  · intro h
    obtain ⟨row, _, he⟩ := h
    rwa [lib.episode_series row.id e he]
  · intro h
    obtain ⟨row, hrow, hid⟩ := List.mem_map.mp (lib.mem_seriesIds_of_mem_episodes h)
    exact ⟨row, hrow, by rwa [hid]⟩

end SonarrLibrary

/-- A library given as a list of series and a list of episodes. -/
def SonarrLibrary.ofLists (series : List SeriesPayload) (episodes : List EpisodePayload)
    (hseries : (series.map SeriesPayload.id).Nodup) (hids : ∀ row ∈ series, row.id ≠ 0)
    (hepisodes : (episodes.map EpisodePayload.id).Nodup)
    (hfiled : ∀ e ∈ episodes, e.id ≠ 0 ∧ e.seriesId ∈ series.map SeriesPayload.id)
    (hfiles : ∀ e ∈ episodes, ∀ e' ∈ episodes, ∀ fid ∈ e.carriedFile.map Prod.fst,
      fid ∈ e'.carriedFile.map Prod.fst → e.seriesId = e'.seriesId) : SonarrLibrary where
  series := series
  episodes := fun sid => episodes.filter fun e => e.seriesId = sid
  series_nodup := hseries
  series_id_ne_zero := hids
  episodes_absent := by
    intro sid hsid
    rw [List.filter_eq_nil_iff]
    intro e he
    rw [decide_eq_true_eq]
    rintro rfl
    exact hsid (hfiled e he).2
  episode_series := fun _ e he => of_decide_eq_true (List.mem_filter.mp he).2
  episode_id_ne_zero := fun _ e he => (hfiled e (List.mem_filter.mp he).1).1
  episode_nodup := fun _ => hepisodes.sublist (List.filter_sublist.map _)
  episode_once := by
    intro sid sid' eid h h'
    obtain ⟨e, he, rfl⟩ := List.mem_map.mp h
    obtain ⟨e', he', hid⟩ := List.mem_map.mp h'
    obtain ⟨hmem, hsid⟩ := List.mem_filter.mp he
    obtain ⟨hmem', hsid'⟩ := List.mem_filter.mp he'
    obtain rfl := List.inj_on_of_nodup_map hepisodes hmem' hmem hid
    exact (of_decide_eq_true hsid).symm.trans (of_decide_eq_true hsid')
  file_once := by
    intro sid sid' fid h h'
    obtain ⟨e, he, file, hfile⟩ := mem_episodeFileIds_iff.mp h
    obtain ⟨e', he', file', hfile'⟩ := mem_episodeFileIds_iff.mp h'
    obtain ⟨hmem, hsid⟩ := List.mem_filter.mp he
    obtain ⟨hmem', hsid'⟩ := List.mem_filter.mp he'
    have hsame := hfiles e hmem e' hmem' fid (by simp [hfile]) (by simp [hfile'])
    rw [← of_decide_eq_true hsid, ← of_decide_eq_true hsid', hsame]

/-- The client's calls return what the library holds. -/
structure SonarrClient.Answers (client : SonarrClient) (lib : SonarrLibrary) : Prop where
  list : client.listSeries = .ok lib.series
  get : ∀ sid, client.getSeries sid = .ok ((lib.find sid).elim .missing .row)
  episodes : ∀ sid, client.listEpisodes sid = .ok (lib.episodes sid)

/-- A client that answers a library. -/
def SonarrLibrary.client (lib : SonarrLibrary) : SonarrClient where
  seriesRequest := .ok (.items lib.series)
  seriesByIdRequest := fun sid =>
    (lib.find sid).elim (.error (.request (some 404) "NotFound")) fun row => .ok (.object row)
  episodeRequest := fun _ sid _ => .ok (.items (lib.episodes sid))

/-- The library's own client answers from it. -/
theorem SonarrLibrary.client_answers (lib : SonarrLibrary) : lib.client.Answers lib where
  list := rfl
  get := by
    intro sid
    cases h : lib.find sid <;>
      simp [SonarrClient.getSeries, SonarrLibrary.client, getOptional, h]
  episodes := fun _ => rfl

namespace RadarrLibrary

variable (lib : RadarrLibrary)

def movieIds : List Int := lib.movies.map MoviePayload.id

/-- The movie with an id, as `GET /movie/{id}` finds it. -/
def find (mid : Int) : Option MoviePayload := lib.movies.find? fun row => row.id = mid

/-- An id is not found if the library does not have it. -/
theorem find_eq_none_iff {mid : Int} : lib.find mid = none ↔ mid ∉ lib.movieIds := by
  simp [find, movieIds, List.find?_eq_none]

/-- What is found under an id has that id. -/
theorem id_of_find_eq_some {mid : Int} {row : MoviePayload} (h : lib.find mid = some row) :
    row.id = mid := by
  have hfound := List.find?_some h
  simpa using hfound

/-- What is found is in the library. -/
theorem mem_of_find_eq_some {mid : Int} {row : MoviePayload} (h : lib.find mid = some row) :
    row ∈ lib.movies :=
  List.mem_of_find?_eq_some h

end RadarrLibrary

/-- The client's calls return what the library holds. -/
structure RadarrClient.Answers (client : RadarrClient) (lib : RadarrLibrary) : Prop where
  list : client.listMovies = .ok lib.movies
  get : ∀ mid, client.getMovie mid = .ok ((lib.find mid).elim .missing .row)

/-- A client that answers a library. -/
def RadarrLibrary.client (lib : RadarrLibrary) : RadarrClient where
  movieRequest := .ok (.items lib.movies)
  movieByIdRequest := fun mid =>
    (lib.find mid).elim (.error (.request (some 404) "NotFound")) fun row => .ok (.object row)

/-- The library's own client answers from it. -/
theorem RadarrLibrary.client_answers (lib : RadarrLibrary) : lib.client.Answers lib where
  list := rfl
  get := by
    intro mid
    cases h : lib.find mid <;>
      simp [RadarrClient.getMovie, RadarrLibrary.client, getOptional, h]

/-! ## What a chunk of ids comes back as -/

/-- A chunk of series ids, answered by a library. -/
def SonarrLibrary.refetch (lib : SonarrLibrary) (chunkIds : List Int) : SeriesRefetch where
  present := (chunkIds.filterMap lib.find).map fun row => (row, lib.episodes row.id)
  deleted := chunkIds.filter fun sid => lib.find sid = none

/-- A chunk whose answers carry nothing the library lacks, though perhaps less
than it holds. -/
structure ServedChunk (lib : SonarrLibrary) (chunk : SeriesRefetch) : Prop where
  present : ∀ sid ∈ chunkSeriesIds chunk.present, sid ∈ lib.seriesIds
  deleted : ∀ sid ∈ chunk.deleted, sid ∉ lib.seriesIds
  episode_series : ∀ e ∈ chunk.episodes, e.seriesId ∈ chunkSeriesIds chunk.present
  episodes : ∀ eid ∈ episodeIds chunk.episodes, lib.HasEpisode eid
  files : ∀ fid ∈ episodeFileIds chunk.episodes, lib.HasFile fid

/-- A chunk of movie ids, answered by a library. -/
def RadarrLibrary.refetch (lib : RadarrLibrary) (chunkIds : List Int) : MovieRefetch where
  present := chunkIds.filterMap lib.find
  deleted := chunkIds.filter fun mid => lib.find mid = none

/-- The ids answered with 404 are the ones the library lacks. -/
theorem missingIds_answers {α : Type} [DecidableEq α] (find : Int → Option α)
    (chunkIds : List Int) :
    missingIds chunkIds (chunkIds.map fun id => (find id).elim .missing .row) =
      chunkIds.filter fun id => find id = none := by
  unfold missingIds
  induction chunkIds with
  | nil => rfl
  | cons id rest ih =>
      simp only [List.map_cons, List.zip_cons_cons, List.filter_cons]
      cases find id with
      | none => simpa using ih
      | some row => simpa using ih

/-- The series that are answered are those found. -/
theorem presentSeries_answers (lib : SonarrLibrary) (chunkIds : List Int) :
    presentSeries chunkIds (chunkIds.map fun sid => (lib.find sid).elim .missing .row) =
      (chunkIds.filterMap lib.find).map fun row => (row.id, row) := by
  unfold presentSeries
  induction chunkIds with
  | nil => rfl
  | cons sid rest ih =>
      simp only [List.map_cons, List.zip_cons_cons, List.filterMap_cons]
      cases hfind : lib.find sid with
      | none => simpa using ih
      | some row =>
          have hid := lib.id_of_find_eq_some hfind
          have hne := lib.series_id_ne_zero row (lib.mem_of_find_eq_some hfind)
          subst hid
          simpa [hne] using ih

/-- The gathers of a chunk of series answer what the library holds. -/
theorem fetchSeriesChunk_of_answers {client : SonarrClient} {lib : SonarrLibrary}
    (hans : client.Answers lib) (chunkIds : List Int) :
    fetchSeriesChunk client chunkIds = .ok (lib.refetch chunkIds) := by
  have hreplies : chunkIds.mapM client.getSeries =
      .ok (chunkIds.map fun sid => (lib.find sid).elim .missing .row) :=
    mapM_eq_ok fun sid _ => hans.get sid
  have hlists : ((chunkIds.filterMap lib.find).map fun row => (row.id, row)).mapM
      (fun answer => client.listEpisodes answer.1) =
      .ok (((chunkIds.filterMap lib.find).map fun row => (row.id, row)).map
        fun answer => lib.episodes answer.1) :=
    mapM_eq_ok fun answer _ => hans.episodes answer.1
  have hzip : ∀ rows : List SeriesPayload,
      ((rows.map fun row => (row.id, row)).map Prod.snd).zip
        ((rows.map fun row => (row.id, row)).map fun answer => lib.episodes answer.1) =
      rows.map fun row => (row, lib.episodes row.id) := by
    intro rows
    induction rows with
    | nil => rfl
    | cons row rest ih => simpa using ih
  unfold fetchSeriesChunk
  rw [hreplies]
  simp only [bind, Except.bind, presentSeries_answers, missingIds_answers, hlists, hzip]
  rfl

/-- The movies that are answered are those found. -/
theorem presentMovies_answers (lib : RadarrLibrary) (chunkIds : List Int) :
    presentMovies (chunkIds.map fun mid => (lib.find mid).elim .missing .row) =
      chunkIds.filterMap lib.find := by
  unfold presentMovies
  induction chunkIds with
  | nil => rfl
  | cons mid rest ih =>
      simp only [List.map_cons, List.filterMap_cons]
      cases hfind : lib.find mid with
      | none => simpa using ih
      | some row =>
          have hne := lib.movie_id_ne_zero row (lib.mem_of_find_eq_some hfind)
          simpa [hne] using ih

/-- The gather of a chunk of movies answers what the library holds. -/
theorem fetchMovieChunk_of_answers {client : RadarrClient} {lib : RadarrLibrary}
    (hans : client.Answers lib) (chunkIds : List Int) :
    fetchMovieChunk client chunkIds = .ok (lib.refetch chunkIds) := by
  have hreplies : chunkIds.mapM client.getMovie =
      .ok (chunkIds.map fun mid => (lib.find mid).elim .missing .row) :=
    mapM_eq_ok fun mid _ => hans.get mid
  unfold fetchMovieChunk
  rw [hreplies]
  simp only [bind, Except.bind, presentMovies_answers, missingIds_answers]
  rfl

namespace SonarrLibrary

variable (lib : SonarrLibrary) {chunkIds : List Int}

/-- A refetch returns the ids that the library has, in their order. -/
theorem chunkSeriesIds_refetch :
    chunkSeriesIds (lib.refetch chunkIds).present =
      chunkIds.filter fun sid => lib.find sid ≠ none := by
  unfold refetch chunkSeriesIds
  induction chunkIds with
  | nil => rfl
  | cons sid rest ih =>
      simp only [List.filterMap_cons, List.filter_cons]
      cases hfind : lib.find sid with
      | none => simpa using ih
      | some row =>
          have hid := lib.id_of_find_eq_some hfind
          simpa [hid] using ih

/-- What is present was asked for and is in the library. -/
theorem mem_present_refetch_iff {sid : Int} :
    sid ∈ chunkSeriesIds (lib.refetch chunkIds).present ↔
      sid ∈ chunkIds ∧ sid ∈ lib.seriesIds := by
  rw [chunkSeriesIds_refetch]
  have hiff : lib.find sid ≠ none ↔ sid ∈ lib.seriesIds := by
    rw [Ne, find_eq_none_iff, not_not]
  simp [hiff]

/-- What is gone was asked for and is not in the library. -/
theorem mem_deleted_refetch_iff {sid : Int} :
    sid ∈ (lib.refetch chunkIds).deleted ↔ sid ∈ chunkIds ∧ sid ∉ lib.seriesIds := by
  simp [refetch, find_eq_none_iff]

/-- The episodes of a chunk are those of its series. -/
theorem mem_episodes_refetch_iff {e : EpisodePayload} :
    e ∈ (lib.refetch chunkIds).episodes ↔ ∃ sid ∈ chunkIds, e ∈ lib.episodes sid := by
  simp only [SeriesRefetch.episodes, chunkEpisodes, refetch, List.flatMap_map, List.mem_flatMap,
    List.mem_filterMap]
  constructor
  · intro h
    obtain ⟨row, ⟨sid, hsid, hfind⟩, he⟩ := h
    rw [lib.id_of_find_eq_some hfind] at he
    exact ⟨sid, hsid, he⟩
  · intro h
    obtain ⟨sid, hsid, he⟩ := h
    cases hfind : lib.find sid with
    | none =>
        have habsent := (lib.find_eq_none_iff).mp hfind
        exact absurd (lib.mem_seriesIds_of_mem_episodes he) habsent
    | some row =>
        refine ⟨row, ⟨sid, hsid, hfind⟩, ?_⟩
        rwa [lib.id_of_find_eq_some hfind]

/-- The episodes fetched are those of the series asked for. -/
theorem mem_episodeIds_refetch_iff {eid : Int} :
    eid ∈ episodeIds (lib.refetch chunkIds).episodes ↔
      ∃ sid ∈ chunkIds, eid ∈ episodeIds (lib.episodes sid) := by
  simp only [episodeIds, List.mem_map, mem_episodes_refetch_iff]
  constructor
  · intro h
    obtain ⟨e, ⟨sid, hsid, he⟩, hid⟩ := h
    exact ⟨sid, hsid, e, he, hid⟩
  · intro h
    obtain ⟨sid, hsid, e, he, hid⟩ := h
    exact ⟨e, ⟨sid, hsid, he⟩, hid⟩

/-- The files fetched are those of the series asked for. -/
theorem mem_episodeFileIds_refetch_iff {fid : Int} :
    fid ∈ episodeFileIds (lib.refetch chunkIds).episodes ↔
      ∃ sid ∈ chunkIds, fid ∈ episodeFileIds (lib.episodes sid) := by
  simp only [mem_episodeFileIds_iff, mem_episodes_refetch_iff]
  constructor
  · intro h
    obtain ⟨e, ⟨sid, hsid, he⟩, hfile⟩ := h
    exact ⟨sid, hsid, e, he, hfile⟩
  · intro h
    obtain ⟨sid, hsid, e, he, hfile⟩ := h
    exact ⟨e, ⟨sid, hsid, he⟩, hfile⟩

/-- A full answer is an answer. -/
theorem servedChunk_refetch (chunkIds : List Int) : ServedChunk lib (lib.refetch chunkIds) where
  present := fun _ hsid => (lib.mem_present_refetch_iff.mp hsid).2
  deleted := fun _ hsid => (lib.mem_deleted_refetch_iff.mp hsid).2
  episode_series := by
    intro e he
    obtain ⟨sid, hsid, hmem⟩ := lib.mem_episodes_refetch_iff.mp he
    rw [lib.episode_series sid e hmem, lib.mem_present_refetch_iff]
    exact ⟨hsid, lib.mem_seriesIds_of_mem_episodes hmem⟩
  episodes := by
    intro eid heid
    obtain ⟨sid, _, hmem⟩ := lib.mem_episodeIds_refetch_iff.mp heid
    exact ⟨sid, hmem⟩
  files := by
    intro fid hfid
    obtain ⟨sid, _, hmem⟩ := lib.mem_episodeFileIds_refetch_iff.mp hfid
    exact ⟨sid, hmem⟩

end SonarrLibrary

namespace RadarrLibrary

variable (lib : RadarrLibrary) {chunkIds : List Int}

/-- What is present was asked for and is in the library. -/
theorem mem_present_refetch_iff {mid : Int} :
    mid ∈ (lib.refetch chunkIds).present.map MoviePayload.id ↔
      mid ∈ chunkIds ∧ mid ∈ lib.movieIds := by
  simp only [refetch, List.mem_map, List.mem_filterMap]
  constructor
  · intro h
    obtain ⟨row, ⟨id, hid, hfind⟩, rfl⟩ := h
    have hrow := lib.id_of_find_eq_some hfind
    subst hrow
    exact ⟨hid, List.mem_map_of_mem (lib.mem_of_find_eq_some hfind)⟩
  · intro h
    obtain ⟨hmem, hlib⟩ := h
    cases hfind : lib.find mid with
    | none => exact absurd hlib (lib.find_eq_none_iff.mp hfind)
    | some row => exact ⟨row, ⟨mid, hmem, hfind⟩, lib.id_of_find_eq_some hfind⟩

/-- What is gone was asked for and is not in the library. -/
theorem mem_deleted_refetch_iff {mid : Int} :
    mid ∈ (lib.refetch chunkIds).deleted ↔ mid ∈ chunkIds ∧ mid ∉ lib.movieIds := by
  simp [refetch, find_eq_none_iff]

end RadarrLibrary

/-! ### A run of movie chunks -/

/-- The chunks one after the other. -/
def ingestMovieChunks (inst : String) (tag : WriteTag) (chunks : List MovieRefetch)
    (s : WriteState Unit) : WriteState Unit :=
  chunks.foldl (fun s chunk => ingestMovieChunk inst tag chunk s) s

/-- The chunks of a run whose history names the given movies. -/
def RadarrLibrary.refetches (lib : RadarrLibrary) (size : ℕ+) (events : List HistoryEvent) :
    List MovieRefetch :=
  (slices size (changedIds HistoryEvent.movieId events)).map lib.refetch

/-- An uninterrupted ingest is its chunks one after the other. -/
theorem ingestRadarrHistoryChanges_of_answers {client : RadarrClient} {lib : RadarrLibrary}
    (hans : client.Answers lib) (inst : String) (tag : WriteTag) (events : List HistoryEvent)
    (wh : Warehouse) :
    (ingestRadarrHistoryChanges client (fun _ => false) inst tag events wh).state =
      ingestMovieChunks inst tag
        (lib.refetches (fetchChunkSize client.maxParallelRequests) events) ⟨wh, (), 0⟩ := by
  unfold ingestRadarrHistoryChanges
  rw [chunkLoop_ok (fun chunkIds s => ingestMovieChunk inst tag (lib.refetch chunkIds) s)]
  · rw [ingestMovieChunks, RadarrLibrary.refetches, List.foldl_map]
  · intro chunkIds _ s
    rw [fetchMovieChunk_of_answers hans]
    rfl
  · exact fun _ _ _ => rfl

end Nebularr
