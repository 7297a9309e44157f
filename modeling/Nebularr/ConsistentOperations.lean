import Nebularr.Consistency
import Nebularr.DeleteEvents

/-!
# Consistency along operations

The webhook paths touch only part of a family: a write upserts episodes and
files but no series row, a series delete flags the files but not the
episodes, an episode or movie delete leaves the files.  Each of the
`…_consistent_iff` lemmas says when that does no harm.

With the lemmas for the runs they make one step lemma
(`Operation.apply_consistent`), and by induction the run lemma: along any
sequence of completed operations from the empty warehouse, as long as each
meets its condition, every warehouse is consistent.
-/

namespace Nebularr

/-! ## Webhook jobs -/

section Webhook

variable {inst : String} (tag : WriteTag) {wh : Warehouse}

/-- What a webhook write of one series needs of the warehouse it finds: the
series of every listed episode is live (the job writes no series row), and a
fetched file on file is filed under a listed or a live episode. -/
structure WebhookLinks (inst : String) (sid : Int) (episodes : List EpisodePayload)
    (wh : Warehouse) : Prop where
  series : ∀ eid ∈ episodeIds episodes,
    wh.series.isLive ⟨(wh.seriesOf inst eid).getD sid, inst⟩ = true
  files : ∀ fid ∈ episodeFileIds episodes, ∀ eid, wh.episodeOf inst fid = some eid →
    eid ∈ episodeIds episodes ∨ wh.episode.isLive ⟨eid, inst⟩ = true

/-- The link of a listed episode after the write. -/
theorem seriesOf_writeWebhookEpisodes {sid : Int} {episodes : List EpisodePayload}
    (hseries : ∀ e ∈ episodes, e.seriesId = sid) {eid : Int} (heid : eid ∈ episodeIds episodes) :
    (writeWebhookEpisodes inst tag episodes wh).seriesOf inst eid =
      some ((wh.seriesOf inst eid).getD sid) := by
  obtain ⟨row, hrow, _, hfirst⟩ := exists_firstSeriesOf heid
  rw [writeWebhookEpisodes_eq, Warehouse.seriesOf, seriesLink_upsertEpisodes, hfirst,
    hseries row hrow, Warehouse.seriesOf]
  cases parentLink EpisodeCols.seriesSourceId wh.episode ⟨eid, inst⟩ <;> rfl

theorem episodeOf_writeWebhookEpisodes (episodes : List EpisodePayload) (fid : Int) :
    (writeWebhookEpisodes inst tag episodes wh).episodeOf inst fid =
      (wh.episodeOf inst fid).or (firstOwnerOf (episodeFilesOf episodes) fid) := by
  rw [writeWebhookEpisodes_eq]
  exact episodeLink_replaceEpisodeFiles inst tag wh.episodeFile _ fid

/-- **A webhook write of a series leaves its tables consistent exactly when the
series rows are live already.** -/
theorem writeWebhookEpisodes_consistent_iff {sid : Int} {episodes : List EpisodePayload}
    (hseries : ∀ e ∈ episodes, e.seriesId = sid) (h : SonarrConsistent inst wh) :
    SonarrConsistent inst (writeWebhookEpisodes inst tag episodes wh) ↔
      WebhookLinks inst sid episodes wh := by
  have hepisode : ∀ eid,
      (writeWebhookEpisodes inst tag episodes wh).episode.isLive ⟨eid, inst⟩ = true ↔
        eid ∈ episodeIds episodes ∨ wh.episode.isLive ⟨eid, inst⟩ = true := by
    intro eid
    rw [writeWebhookEpisodes_eq]
    simp
  have hsame : (writeWebhookEpisodes inst tag episodes wh).series = wh.series := by
    rw [writeWebhookEpisodes_eq]
  constructor
  · intro hafter
    refine ⟨?_, ?_⟩
    · intro eid heid
      have hlive := hafter.episodes.parent_live ((hepisode eid).mpr (Or.inl heid))
        (seriesOf_writeWebhookEpisodes tag hseries heid)
      rwa [hsame] at hlive
    · intro fid hfid eid hlink
      by_contra hno
      rw [not_or] at hno
      have hlive : (writeWebhookEpisodes inst tag episodes wh).episodeFile.isLive ⟨fid, inst⟩ =
          true := by
        rw [writeWebhookEpisodes_eq]
        exact isLive_replaceEpisodeFiles inst tag hfid hlink
          fun hin => hno.1 (ownerIds_episodeFilesOf episodes hin)
      have hlink' : (writeWebhookEpisodes inst tag episodes wh).episodeOf inst fid = some eid := by
        rw [episodeOf_writeWebhookEpisodes, hlink, Option.some_or]
      have hparent := hafter.files.parent_live hlive hlink'
      rw [hepisode] at hparent
      exact hparent.elim hno.1 hno.2
  · intro hcond
    refine ⟨?_, ?_⟩
    · intro eid hlive
      rw [hsame]
      change ∃ s, (writeWebhookEpisodes inst tag episodes wh).seriesOf inst eid = some s ∧ _
      by_cases heid : eid ∈ episodeIds episodes
      · exact ⟨_, seriesOf_writeWebhookEpisodes tag hseries heid, hcond.series eid heid⟩
      · obtain ⟨s, hlink, hparent⟩ := h.episodes eid (((hepisode eid).mp hlive).resolve_left heid)
        refine ⟨s, ?_, hparent⟩
        rw [writeWebhookEpisodes_eq, Warehouse.seriesOf, seriesLink_upsertEpisodes, hlink,
          Option.some_or]
    · intro fid hlive
      simp only [hepisode]
      change ∃ eid, (writeWebhookEpisodes inst tag episodes wh).episodeOf inst fid = some eid ∧ _
      rw [episodeOf_writeWebhookEpisodes]
      rw [writeWebhookEpisodes_eq] at hlive
      rcases isLive_of_replaceFiles hlive with hfid | hbefore
      · cases hlink : wh.episodeOf inst fid with
        | some eid => exact ⟨eid, rfl, hcond.files fid hfid eid hlink⟩
        | none =>
            obtain ⟨eid, heid, hfirst⟩ := exists_firstOwnerOf hfid
            exact ⟨eid, by simpa using hfirst, Or.inl heid⟩
      · obtain ⟨eid, hlink, hparent⟩ := h.files fid hbefore
        have hlink' : wh.episodeOf inst fid = some eid := hlink
        exact ⟨eid, by rw [hlink', Option.some_or], Or.inr hparent⟩

/-- **`SeriesDelete` leaves the tables consistent exactly when no live episode
is filed under the series**: it flags the files but not the episodes. -/
theorem tombstoneWebhookSeriesDelete_consistent_iff (seriesIds : List Int)
    (h : SonarrConsistent inst wh) :
    SonarrConsistent inst (tombstoneWebhookSeriesDelete inst seriesIds wh) ↔
      ∀ eid, wh.episode.isLive ⟨eid, inst⟩ = true →
        ¬ FiledUnder (wh.seriesOf inst eid) seriesIds := by
  constructor
  · intro hafter eid hlive hfiled
    obtain ⟨sid, hsid, hlink⟩ := hfiled
    have hseries := hafter.episodes.parent_live hlive hlink
    simp [tombstoneWebhookSeriesDelete, hsid] at hseries
  · intro hcond
    refine ⟨?_, ?_⟩
    · intro eid hlive
      obtain ⟨sid, hlink, hseries⟩ := h.episodes eid hlive
      refine ⟨sid, hlink, ?_⟩
      have hkept : sid ∉ seriesIds := fun hin => hcond eid hlive ⟨sid, hin, hlink⟩
      simp [tombstoneWebhookSeriesDelete, hseries, hkept]
    · intro fid hlive
      rw [tombstoneWebhookSeriesDelete, isLive_tombstoneEpisodeFilesForSeries_iff] at hlive
      obtain ⟨eid, hlink, hepisode⟩ := h.files fid hlive.1
      exact ⟨eid, by simpa [tombstoneWebhookSeriesDelete] using hlink, hepisode⟩

/-- **A delete of episodes leaves the tables consistent exactly when no live
file is filed under one of them**: it does not touch the files. -/
theorem tombstoneWebhookEpisodes_consistent_iff (ids : List Int) (h : SonarrConsistent inst wh) :
    SonarrConsistent inst (tombstoneWebhookEpisodes inst ids wh) ↔
      ∀ fid, wh.episodeFile.isLive ⟨fid, inst⟩ = true →
        ¬ FiledUnder (wh.episodeOf inst fid) ids := by
  constructor
  · intro hafter fid hlive hfiled
    obtain ⟨eid, heid, hlink⟩ := hfiled
    have hepisode := hafter.files.parent_live hlive hlink
    simp [tombstoneWebhookEpisodes, heid] at hepisode
  · intro hcond
    refine ⟨?_, ?_⟩
    · intro eid hlive
      have hbefore : wh.episode.isLive ⟨eid, inst⟩ = true := by
        simp only [tombstoneWebhookEpisodes, isLive_markDeletedSourceIds, Bool.and_eq_true] at hlive
        exact hlive.1
      obtain ⟨sid, hlink, hseries⟩ := h.episodes eid hbefore
      exact ⟨sid, by simpa [tombstoneWebhookEpisodes] using hlink, hseries⟩
    · intro fid hlive
      obtain ⟨eid, hlink, hepisode⟩ := h.files fid hlive
      have hkept : eid ∉ ids := fun hin => hcond fid hlive ⟨eid, hin, hlink⟩
      exact ⟨eid, hlink, by simp [tombstoneWebhookEpisodes, hepisode, hkept]⟩

/-- What a webhook write of movies needs of the links it finds. -/
def WebhookMovieLinks (inst : String) (movies : List MoviePayload) (wh : Warehouse) : Prop :=
  ∀ fid ∈ movieFileIds movies, ∀ mid, wh.movieOf inst fid = some mid →
    mid ∈ movies.map MoviePayload.id ∨ wh.movie.isLive ⟨mid, inst⟩ = true

/-- A webhook write of movies without deletions, table by table. -/
theorem writeWebhookMovies_nil (movies : List MoviePayload) :
    writeWebhookMovies inst tag movies [] wh =
      { wh with
        movie := upsertMovies wh.movie inst tag movies
        movieFile := replaceMovieFiles inst tag wh.movieFile (movieFilesOf movies) } := by
  rw [writeWebhookMovies, foldl_writeWebhookMovie]
  simp [markDeletedSourceIds]

/-- A webhook write of movies leaves their tables consistent exactly when no
fetched file is filed under a movie that is neither fetched nor live. -/
theorem writeWebhookMovies_consistent_iff (movies : List MoviePayload)
    (h : RadarrConsistent inst wh) :
    RadarrConsistent inst (writeWebhookMovies inst tag movies [] wh) ↔
      WebhookMovieLinks inst movies wh := by
  rw [writeWebhookMovies_nil]
  have hlinks := movieLink_replaceMovieFiles inst tag wh.movieFile (movieFilesOf movies)
  have hmovie : ∀ mid, (upsertMovies wh.movie inst tag movies).isLive ⟨mid, inst⟩ = true ↔
      mid ∈ movies.map MoviePayload.id ∨ wh.movie.isLive ⟨mid, inst⟩ = true := by
    intro mid
    rw [isLive_upsertMovies]
    simp
  constructor
  · intro hafter fid hfid mid hlink
    have hlink' : parentLink MovieFileCols.movieSourceId wh.movieFile ⟨fid, inst⟩ = some mid :=
      hlink
    by_cases hlisted : mid ∈ movies.map MoviePayload.id
    · exact Or.inl hlisted
    · have hforeign : mid ∉ (movieFilesOf movies).map CarriedFile.ownerId := fun hin =>
        hlisted (ownerIds_movieFilesOf movies hin)
      have hlive := isLive_replaceMovieFiles inst tag hfid hlink' hforeign
      have hparent := ChildrenLive.parent_live hafter hlive (by rw [hlinks, hlink', Option.some_or])
      exact (hmovie mid).mp hparent
  · intro hcond fid hlive
    simp only [hlinks, hmovie]
    rcases isLive_of_replaceFiles hlive with hfid | hbefore
    · cases hlink : parentLink MovieFileCols.movieSourceId wh.movieFile ⟨fid, inst⟩ with
      | some mid => exact ⟨mid, rfl, hcond fid hfid mid hlink⟩
      | none =>
          obtain ⟨mid, hmid, hfirst⟩ := filedUnder_firstOwnerOf_movies hfid
          exact ⟨mid, by simpa using hfirst, Or.inl hmid⟩
    · obtain ⟨mid, hlink, hparent⟩ := h fid hbefore
      exact ⟨mid, by rw [hlink, Option.some_or], Or.inr hparent⟩

/-- **A Radarr delete leaves the tables consistent exactly when no live file is
filed under the movie.** -/
theorem webhookMovieDelete_consistent_iff (ids : List Int) (h : RadarrConsistent inst wh) :
    RadarrConsistent inst (writeWebhookMovies inst tag [] ids wh) ↔
      ∀ fid, wh.movieFile.isLive ⟨fid, inst⟩ = true → ¬ FiledUnder (wh.movieOf inst fid) ids := by
  have hwrite : writeWebhookMovies inst tag [] ids wh =
      { wh with movie := markDeletedSourceIds wh.movie inst ids } := rfl
  rw [hwrite]
  constructor
  · intro hafter fid hlive hfiled
    obtain ⟨mid, hmid, hlink⟩ := hfiled
    have hmovie := ChildrenLive.parent_live hafter hlive hlink
    simp [hmid] at hmovie
  · intro hcond fid hlive
    obtain ⟨mid, hlink, hmovie⟩ := h fid hlive
    have hkept : mid ∉ ids := fun hin => hcond fid hlive ⟨mid, hin, hlink⟩
    exact ⟨mid, hlink, by simp [hmovie, hkept]⟩

end Webhook

/-! ### One job -/

section Job

variable {inst : String} (tag : WriteTag) {wh : Warehouse}

/-- The movies a Radarr job that is no delete fetches. -/
def RadarrLibrary.webhookMovies (lib : RadarrLibrary) (movieId : Option Int) : List MoviePayload :=
  match movieId with
  | none => lib.movies
  | some mid => (lib.find mid).toList

/-- **When a webhook job leaves the invariant standing**, for the libraries at
that moment and the warehouse it finds. -/
def WebhookJob.Safe (sonarr : SonarrLibrary) (radarr : RadarrLibrary) (inst : String)
    (job : WebhookJob) (wh : Warehouse) : Prop :=
  match job.source with
  | .sonarr =>
      if containsWord "delete" job.eventType then
        if containsWord "series" job.eventType then
          ∀ eid, wh.episode.isLive ⟨eid, inst⟩ = true →
            ¬ FiledUnder (wh.seriesOf inst eid) (job.payload.seriesId.filter (· ≠ 0)).toList
        else
          ∀ fid, wh.episodeFile.isLive ⟨fid, inst⟩ = true →
            ¬ FiledUnder (wh.episodeOf inst fid) job.payload.deletedEpisodeIds
      else
        ∀ sid, job.payload.seriesId.filter (· ≠ 0) = some sid →
          WebhookLinks inst sid (sonarr.episodes sid) wh
  | .radarr =>
      if containsWord "delete" job.eventType then
        ∀ fid, wh.movieFile.isLive ⟨fid, inst⟩ = true →
          ¬ FiledUnder (wh.movieOf inst fid) (job.payload.movieId.filter (· ≠ 0)).toList
      else
        WebhookMovieLinks inst (radarr.webhookMovies (job.payload.movieId.filter (· ≠ 0))) wh

variable {clients : Integrations} {sonarrClient : SonarrClient} {radarrClient : RadarrClient}
  {sonarr : SonarrLibrary} {radarr : RadarrLibrary} {job : WebhookJob}

/-- A Sonarr job that Sonarr answers succeeds, and what it does to the invariant. -/
theorem processSonarrJob_consistent_iff (hinst : job.payload.instance = inst)
    (hclient : clients.sonarr inst = some sonarrClient) (hans : sonarrClient.Answers sonarr)
    (hsource : job.source = .sonarr) (h : Consistent inst wh) :
    ∃ w, processSonarrJob clients tag job wh = .ok w ∧
      (Consistent inst w ↔ job.Safe sonarr radarr inst wh) := by
  have hsplit : ∀ w : Warehouse, w.movie = wh.movie → w.movieFile = wh.movieFile →
      (Consistent inst w ↔ SonarrConsistent inst w) := by
    intro w hmovie hfile
    refine ⟨fun hw => hw.sonarr, fun hw => ⟨hw, ?_⟩⟩
    rw [RadarrConsistent, hmovie, hfile]
    exact h.radarr
  unfold processSonarrJob WebhookJob.Safe
  rw [hinst, hsource]
  simp only [integrationByName, hclient, bind, Except.bind, pure, Except.pure]
  by_cases hdelete : containsWord "delete" job.eventType = true
  · by_cases hseries : containsWord "series" job.eventType = true
    · simp only [hdelete, hseries, if_true]
      exact ⟨_, rfl, (hsplit (tombstoneWebhookSeriesDelete inst _ wh) rfl rfl).trans
        (tombstoneWebhookSeriesDelete_consistent_iff _ h.sonarr)⟩
    · simp only [hdelete, hseries, if_true, Bool.false_eq_true, if_false]
      exact ⟨_, rfl, (hsplit (tombstoneWebhookEpisodes inst _ wh) rfl rfl).trans
        (tombstoneWebhookEpisodes_consistent_iff _ h.sonarr)⟩
  · simp only [hdelete, Bool.false_eq_true, if_false]
    cases hsid : job.payload.seriesId.filter (· ≠ 0) with
    | none =>
        refine ⟨wh, rfl, iff_of_true h ?_⟩
        intro _ hno
        cases hno
    | some sid =>
        simp only [hans.episodes sid]
        refine ⟨_, rfl, ?_⟩
        rw [hsplit _ (by rw [writeWebhookEpisodes_eq]) (by rw [writeWebhookEpisodes_eq]),
          writeWebhookEpisodes_consistent_iff tag (sonarr.episode_series sid) h.sonarr]
        simp

/-- A Radarr job that Radarr answers succeeds, and what it does to the invariant. -/
theorem processRadarrJob_consistent_iff (hinst : job.payload.instance = inst)
    (hclient : clients.radarr inst = some radarrClient) (hans : radarrClient.Answers radarr)
    (hsource : job.source = .radarr) (h : Consistent inst wh) :
    ∃ w, processRadarrJob clients tag job wh = .ok w ∧
      (Consistent inst w ↔ job.Safe sonarr radarr inst wh) := by
  have hsplit : ∀ movies ids,
      (Consistent inst (writeWebhookMovies inst tag movies ids wh) ↔
        RadarrConsistent inst (writeWebhookMovies inst tag movies ids wh)) := by
    intro movies ids
    refine ⟨fun hw => hw.radarr, fun hw => ⟨⟨?_, ?_⟩, hw⟩⟩
    · simpa [writeWebhookMovies, foldl_writeWebhookMovie] using h.sonarr.episodes
    · simpa [writeWebhookMovies, foldl_writeWebhookMovie] using h.sonarr.files
  have hfetch : webhookMovies radarrClient false (job.payload.movieId.filter (· ≠ 0)) =
      .ok (radarr.webhookMovies (job.payload.movieId.filter (· ≠ 0))) := by
    cases job.payload.movieId.filter (· ≠ 0) with
    | none => exact hans.list
    | some mid =>
        simp only [webhookMovies, Bool.false_eq_true, if_false, hans.get mid,
          RadarrLibrary.webhookMovies]
        cases radarr.find mid <;> rfl
  unfold processRadarrJob WebhookJob.Safe
  rw [hinst, hsource]
  simp only [integrationByName, hclient, bind, Except.bind, pure, Except.pure]
  by_cases hdelete : containsWord "delete" job.eventType = true
  · simp only [hdelete, webhookMovies, if_true]
    refine ⟨_, rfl, ?_⟩
    rw [hsplit]
    exact webhookMovieDelete_consistent_iff tag _ h.radarr
  · simp only [hdelete, Bool.not_eq_true] at hdelete ⊢
    simp only [hfetch, Bool.false_eq_true, if_false]
    refine ⟨_, rfl, ?_⟩
    rw [hsplit]
    exact writeWebhookMovies_consistent_iff tag _ h.radarr

end Job

/-! ## Sequences of operations -/

/-- A Sonarr at some moment: what it holds, and a client that is told all of it. -/
structure SonarrFeed where
  lib : SonarrLibrary
  client : SonarrClient
  answers : client.Answers lib

/-- A Radarr at some moment. -/
structure RadarrFeed where
  lib : RadarrLibrary
  client : RadarrClient
  answers : client.Answers lib

/-- A completed operation on the instance `inst`, with what Arr holds at that
moment.  A reconcile run is a full run under another tag. -/
inductive Operation (inst : String)
  | sonarrFull (feed : SonarrFeed) (tag : WriteTag)
  | sonarrIncremental (feed : SonarrFeed) (tag : WriteTag) (events : List HistoryEvent)
  | radarrFull (feed : RadarrFeed) (tag : WriteTag)
  | radarrIncremental (feed : RadarrFeed) (tag : WriteTag) (events : List HistoryEvent)
  | webhook (sonarr : SonarrFeed) (radarr : RadarrFeed) (tag : WriteTag) (job : WebhookJob)
      (hinst : job.payload.instance = inst)

namespace Operation

variable {inst : String}

/-- The warehouse an operation leaves. -/
def apply (wh : Warehouse) : Operation inst → Warehouse
  | sonarrFull feed tag => (syncSonarrFull feed.client (fun _ => false) inst tag wh).wh
  | sonarrIncremental feed tag events =>
      (ingestSonarrHistoryChanges feed.client (fun _ => false) inst tag events
        (refreshScopeSeries feed.client inst tag wh)).state.wh
  | radarrFull feed tag => (syncRadarrFull feed.client (fun _ => false) inst tag wh).wh
  | radarrIncremental feed tag events =>
      (ingestRadarrHistoryChanges feed.client (fun _ => false) inst tag events
        (refreshScopeMovies feed.client inst tag wh)).state.wh
  | webhook sonarr radarr tag job _ =>
      match processWebhookJob ⟨fun _ => some sonarr.client, fun _ => some radarr.client⟩ tag job wh
        with
      | .ok w => w
      | .error _ => wh

/-- When an operation leaves the invariant standing; an incremental run is
judged chunk by chunk. -/
def Safe (wh : Warehouse) : Operation inst → Prop
  | sonarrFull feed _ => FullLinks inst feed.lib wh
  | sonarrIncremental feed tag events =>
      ∀ pre chunk post,
        feed.lib.refetches (fetchChunkSize feed.client.maxParallelRequests) events =
            pre ++ chunk :: post →
          ChunkLinks inst chunk (ingestSeriesChunks inst tag pre
            ⟨refreshScopeSeries feed.client inst tag wh, (), 0⟩).wh
  | radarrFull feed _ => MovieLinks inst feed.lib wh
  | radarrIncremental feed tag events =>
      ∀ pre chunk post,
        feed.lib.refetches (fetchChunkSize feed.client.maxParallelRequests) events =
            pre ++ chunk :: post →
          MovieChunkLinks inst chunk (ingestMovieChunks inst tag pre
            ⟨refreshScopeMovies feed.client inst tag wh, (), 0⟩).wh
  | webhook sonarr radarr _ job _ => job.Safe sonarr.lib radarr.lib inst wh

end Operation

section Runs

variable {inst : String} (tag : WriteTag)

/-- Chunk after chunk of an incremental Sonarr run. -/
theorem ingestSeriesChunks_consistent {lib : SonarrLibrary} {chunks : List SeriesRefetch}
    (hserved : ∀ chunk ∈ chunks, ServedChunk lib chunk) {s : WriteState Unit}
    (h : SonarrConsistent inst s.wh)
    (hlinks : ∀ pre chunk post, chunks = pre ++ chunk :: post →
      ChunkLinks inst chunk (ingestSeriesChunks inst tag pre s).wh) :
    SonarrConsistent inst (ingestSeriesChunks inst tag chunks s).wh := by
  induction chunks generalizing s with
  | nil => exact h
  | cons chunk rest ih =>
      obtain ⟨hfirst, hrest⟩ := forall_split_cons_iff.mp hlinks
      have hchunk := hserved chunk List.mem_cons_self
      have hnext : SonarrConsistent inst (ingestSeriesChunk inst tag chunk s).wh :=
        (ingestSeriesChunk_consistent_iff tag s hchunk h).mpr hfirst
      exact ih (fun c hc => hserved c (List.mem_cons_of_mem _ hc)) hnext hrest

/-- Chunk after chunk of an incremental Radarr run. -/
theorem ingestMovieChunks_consistent {chunks : List MovieRefetch}
    (hdisjoint : ∀ chunk ∈ chunks, ∀ mid ∈ chunk.present.map MoviePayload.id, mid ∉ chunk.deleted)
    {s : WriteState Unit} (h : RadarrConsistent inst s.wh)
    (hlinks : ∀ pre chunk post, chunks = pre ++ chunk :: post →
      MovieChunkLinks inst chunk (ingestMovieChunks inst tag pre s).wh) :
    RadarrConsistent inst (ingestMovieChunks inst tag chunks s).wh := by
  induction chunks generalizing s with
  | nil => exact h
  | cons chunk rest ih =>
      obtain ⟨hfirst, hrest⟩ := forall_split_cons_iff.mp hlinks
      have hnext : RadarrConsistent inst (ingestMovieChunk inst tag chunk s).wh :=
        (ingestMovieChunk_consistent_iff tag s (hdisjoint chunk List.mem_cons_self) h).mpr hfirst
      exact ih (fun c hc => hdisjoint c (List.mem_cons_of_mem _ hc)) hnext hrest

/-- The movie tables are none of a Sonarr writer's business. -/
theorem RadarrConsistent.of_frame {wh w : Warehouse} (h : RadarrConsistent inst wh)
    (hframe : SonarrFrame inst wh w) : RadarrConsistent inst w := by
  rw [RadarrConsistent, hframe.movie, hframe.movieFile]
  exact h

/-- And the Sonarr tables none of a Radarr writer's. -/
theorem SonarrConsistent.of_frame {wh w : Warehouse} (h : SonarrConsistent inst wh)
    (hframe : RadarrFrame inst wh w) : SonarrConsistent inst w := by
  refine ⟨?_, ?_⟩
  · rw [hframe.episode, hframe.series]
    exact h.episodes
  · rw [hframe.episodeFile, hframe.episode]
    exact h.files

theorem refreshScopeSeries_frame (client : SonarrClient) (wh : Warehouse) :
    SonarrFrame inst wh (refreshScopeSeries client inst tag wh) := by
  unfold refreshScopeSeries
  split
  · split
    · exact .refl wh
    · exact ⟨sameElsewhere_upsertSeriesAll _ _ _ _, .refl _, .refl _, rfl, rfl⟩
  · exact .refl wh

theorem refreshScopeMovies_frame (client : RadarrClient) (wh : Warehouse) :
    RadarrFrame inst wh (refreshScopeMovies client inst tag wh) := by
  unfold refreshScopeMovies
  split
  · split
    · exact .refl wh
    · exact ⟨sameElsewhere_upsertMovies _ _ _ _, .refl _, rfl, rfl, rfl⟩
  · exact .refl wh

theorem ingestMovieChunks_frame (chunks : List MovieRefetch) (s : WriteState Unit) :
    RadarrFrame inst s.wh (ingestMovieChunks inst tag chunks s).wh := by
  unfold ingestMovieChunks
  induction chunks generalizing s with
  | nil => exact .refl s.wh
  | cons chunk rest ih => exact (ingestMovieChunk_frame inst tag chunk s).trans (ih _)

/-- **One operation.**  From a consistent warehouse, an operation that meets
its condition leaves a consistent one. -/
theorem Operation.apply_consistent {op : Operation inst} {wh : Warehouse}
    (h : Consistent inst wh) (hsafe : op.Safe wh) : Consistent inst (op.apply wh) := by
  cases op with
  | sonarrFull feed tag =>
      exact ⟨(syncSonarrFull_consistent_iff inst tag wh feed.answers h.sonarr).mpr hsafe,
        h.radarr.of_frame syncSonarrFullBy_frame⟩
  | sonarrIncremental feed tag events =>
      have hscope := refreshScopeSeries_consistent tag feed.client h.sonarr
      have hserved : ∀ chunk ∈ feed.lib.refetches
          (fetchChunkSize feed.client.maxParallelRequests) events, ServedChunk feed.lib chunk := by
        intro chunk hchunk
        obtain ⟨part, _, rfl⟩ := List.mem_map.mp hchunk
        exact feed.lib.servedChunk_refetch part
      rw [apply, ingestSonarrHistoryChanges_of_answers feed.answers]
      exact ⟨ingestSeriesChunks_consistent tag hserved hscope hsafe,
        h.radarr.of_frame ((refreshScopeSeries_frame tag feed.client wh).trans
          (ingestSeriesChunks_frame inst tag _ ⟨_, (), 0⟩))⟩
  | radarrFull feed tag =>
      exact ⟨h.sonarr.of_frame syncRadarrFullBy_frame,
        (syncRadarrFull_consistent_iff inst tag wh feed.answers h.radarr).mpr hsafe⟩
  | radarrIncremental feed tag events =>
      have hscope := refreshScopeMovies_consistent tag feed.client h.radarr
      have hdisjoint : ∀ chunk ∈ feed.lib.refetches
          (fetchChunkSize feed.client.maxParallelRequests) events,
          ∀ mid ∈ chunk.present.map MoviePayload.id, mid ∉ chunk.deleted := by
        intro chunk hchunk mid hpresent hdeleted
        obtain ⟨part, _, rfl⟩ := List.mem_map.mp hchunk
        exact (feed.lib.mem_deleted_refetch_iff.mp hdeleted).2
          (feed.lib.mem_present_refetch_iff.mp hpresent).2
      rw [apply, ingestRadarrHistoryChanges_of_answers feed.answers]
      exact ⟨h.sonarr.of_frame ((refreshScopeMovies_frame tag feed.client wh).trans
          (ingestMovieChunks_frame tag _ ⟨_, (), 0⟩)),
        ingestMovieChunks_consistent tag hdisjoint hscope hsafe⟩
  | webhook sonarr radarr tag job hinst =>
      have hjob : ∃ w, processWebhookJob
          ⟨fun _ => some sonarr.client, fun _ => some radarr.client⟩ tag job wh = .ok w ∧
          (Consistent inst w ↔ job.Safe sonarr.lib radarr.lib inst wh) := by
        unfold processWebhookJob
        cases hsource : job.source with
        | sonarr => exact processSonarrJob_consistent_iff tag hinst rfl sonarr.answers hsource h
        | radarr => exact processRadarrJob_consistent_iff tag hinst rfl radarr.answers hsource h
      obtain ⟨w, hw, hiff⟩ := hjob
      rw [apply, hw]
      exact hiff.mpr hsafe

end Runs

/-- The warehouse after a sequence of operations. -/
def afterOperations {inst : String} (ops : List (Operation inst)) (wh : Warehouse) : Warehouse :=
  ops.foldl Operation.apply wh

theorem consistent_empty (inst : String) : Consistent inst Warehouse.empty :=
  ⟨⟨.of_none _ fun _ => rfl, .of_none _ fun _ => rfl⟩, ChildrenLive.of_none _ fun _ => rfl⟩

/-- **Parent and child rows stay consistent** along every sequence of
operations from the empty warehouse in which each operation meets its
condition. -/
theorem operations_keep_consistent {inst : String} (ops : List (Operation inst))
    (hsafe : ∀ pre op post, ops = pre ++ op :: post →
      op.Safe (afterOperations pre Warehouse.empty)) :
    ∀ pre post, ops = pre ++ post → Consistent inst (afterOperations pre Warehouse.empty) := by
  intro pre
  induction pre using List.reverseRecOn with
  | nil => exact fun _ _ => consistent_empty inst
  | append_singleton pre op ih =>
      intro post hsplit
      rw [List.append_assoc, List.singleton_append] at hsplit
      have hbefore := ih (op :: post) hsplit
      rw [afterOperations, List.foldl_append]
      exact Operation.apply_consistent hbefore (hsafe pre op post hsplit)

/-! ### The first webhook of a series -/

/-- A Sonarr with series 1, episode 11 and file 21. -/
def oneEpisodeFeed : SonarrFeed :=
  ⟨oneEpisodeLibrary, oneEpisodeLibrary.client, oneEpisodeLibrary.client_answers⟩

/-- A Radarr without movies. -/
def emptyRadarr : RadarrLibrary where
  movies := []
  movie_nodup := List.nodup_nil
  movie_id_ne_zero := fun _ h => nomatch h
  file_once := fun _ h => nomatch h

/-- A `Download` webhook that names series 1. -/
def downloadJob : WebhookJob :=
  ⟨.sonarr, "Download", { instanceName := some "default", seriesId := some 1 }⟩

/-- Its processing. -/
def downloadWebhook : Operation "default" :=
  .webhook oneEpisodeFeed ⟨emptyRadarr, emptyRadarr.client, emptyRadarr.client_answers⟩
    ⟨1, "webhook", String.toLower⟩ downloadJob rfl

/-- The job writes episode 11 but no row for its series. -/
theorem download_webhook_leaves_orphan :
    ¬ Consistent "default" (afterOperations [downloadWebhook] Warehouse.empty) := by
  have hafter : afterOperations [downloadWebhook] Warehouse.empty =
      writeWebhookEpisodes "default" ⟨1, "webhook", String.toLower⟩ (oneEpisodeLibrary.episodes 1)
        Warehouse.empty := by
    have hword : containsWord "delete" "Download" = false := by decide
    simp [afterOperations, downloadWebhook, Operation.apply, processWebhookJob, processSonarrJob,
      downloadJob, WebhookPayload.instance, integrationByName, hword, oneEpisodeFeed,
      oneEpisodeLibrary.client_answers.episodes, bind, Except.bind, pure, Except.pure,
        Option.filter]
  rw [hafter]
  intro h
  have hlinks := (writeWebhookEpisodes_consistent_iff ⟨1, "webhook", String.toLower⟩
    (oneEpisodeLibrary.episode_series 1) (consistent_empty "default").sonarr).mp h.sonarr
  have hseries := hlinks.series 11 (mem_episodeIds_oneEpisode.mpr ⟨rfl, rfl⟩)
  cases hseries

/-- The Sonarr when it has grown. -/
def grownFeed : SonarrFeed :=
  ⟨grownLibrary, grownLibrary.client, grownLibrary.client_answers⟩

/-- A full run, another one after Sonarr has grown, and then the webhook. -/
def twoRunsAndWebhook : List (Operation "default") :=
  [.sonarrFull oneEpisodeFeed ⟨1, "full", String.toLower⟩,
    .sonarrFull grownFeed ⟨2, "full", String.toLower⟩,
    .webhook grownFeed ⟨emptyRadarr, emptyRadarr.client, emptyRadarr.client_answers⟩
      ⟨3, "webhook", String.toLower⟩ downloadJob rfl]

/-- What the second run and the webhook find. -/
theorem twoRunsAndWebhook_links :
    FullLinks "default" grownLibrary (afterOperations (twoRunsAndWebhook.take 1) Warehouse.empty) ∧
      WebhookLinks "default" 1 (grownLibrary.episodes 1)
        (afterOperations (twoRunsAndWebhook.take 2) Warehouse.empty) := by
  have hseries : ∀ eid ∈ episodeIds grownLibrary.allEpisodes,
      ∀ sid ∈ (afterOperations (twoRunsAndWebhook.take 1) Warehouse.empty).seriesOf "default" eid,
        sid ∈ grownLibrary.seriesIds := by decide +kernel
  have hepisodes : ∀ fid ∈ episodeFileIds grownLibrary.allEpisodes,
      ∀ eid ∈ (afterOperations (twoRunsAndWebhook.take 1) Warehouse.empty).episodeOf "default" fid,
        eid ∈ episodeIds grownLibrary.allEpisodes := by decide +kernel
  have hlive : ∀ eid ∈ episodeIds (grownLibrary.episodes 1),
      (afterOperations (twoRunsAndWebhook.take 2) Warehouse.empty).series.isLive
        ⟨((afterOperations (twoRunsAndWebhook.take 2) Warehouse.empty).seriesOf "default"
          eid).getD 1,
          "default"⟩ = true := by decide +kernel
  have hlisted : ∀ fid ∈ episodeFileIds (grownLibrary.episodes 1),
      ∀ eid ∈ (afterOperations (twoRunsAndWebhook.take 2) Warehouse.empty).episodeOf "default" fid,
        eid ∈ episodeIds (grownLibrary.episodes 1) := by decide +kernel
  exact ⟨⟨hseries, hepisodes⟩,
    ⟨hlive, fun fid hfid eid hlink => Or.inl (hlisted fid hfid eid hlink)⟩⟩

theorem two_runs_and_webhook_consistent :
    Consistent "default" (afterOperations twoRunsAndWebhook Warehouse.empty) := by
  apply operations_keep_consistent twoRunsAndWebhook ?_ _ [] (List.append_nil _).symm
  refine forall_split_cons_iff.mpr ⟨?_, forall_split_cons_iff.mpr ⟨?_, forall_split_cons_iff.mpr
    ⟨?_, ?_⟩⟩⟩
  · refine ⟨?_, ?_⟩
    · intro eid _ sid hlink
      cases hlink
    · intro fid _ eid hlink
      cases hlink
  · exact twoRunsAndWebhook_links.1
  · intro sid hsid
    obtain rfl : 1 = sid := Option.some.inj hsid
    exact twoRunsAndWebhook_links.2
  · intro pre op post hnil
    cases pre <;> cases hnil

end Nebularr
