import Mathlib.Data.List.Infix
import Nebularr.Library

/-!
# Webhook jobs

What `process_webhook_queue` does to the warehouse for one claimed job.  A
job is routed by its source and by two substring tests on its event type: an
event type that contains `delete` is handled from the payload alone, any
other one refetches what the payload names.  The queue around it (claims,
outcomes, retries) is a module of its own.
-/

namespace Nebularr

/-- The two applications. -/
inductive Source
  | sonarr
  | radarr
deriving DecidableEq, Repr

/-- The fields of a webhook payload that the processor reads. -/
structure WebhookPayload where
  instanceName : Option String := none
  seriesId : Option Int := none
  episodeIds : List (Option Int) := []
  movieId : Option Int := none
deriving DecidableEq, Repr

/-- A claimed row of `webhook_queue`, as far as its processing reads it. -/
structure WebhookJob where
  source : Source
  eventType : String
  payload : WebhookPayload
deriving DecidableEq, Repr

/-- `word in text.lower()`. -/
def containsWord (word text : String) : Bool :=
  decide (word.toList <:+: text.toList.map Char.toLower)

/-- `payload.get("instance_name", "default")`. -/
def WebhookPayload.instance (payload : WebhookPayload) : String :=
  payload.instanceName.getD "default"

/-- The truthy ids of the `episodes` array. -/
def WebhookPayload.deletedEpisodeIds (payload : WebhookPayload) : List Int :=
  payload.episodeIds.filterMap fun id => id.filter (· ≠ 0)

/-! ## The write paths -/

/-- The body of the loop of `_write_webhook_episodes`. -/
def writeWebhookEpisode (inst : String) (tag : WriteTag) (wh : Warehouse)
    (episode : EpisodePayload) : Warehouse :=
  let episodes := upsertEpisode wh.episode inst episode tag
  match episode.carriedFile with
  | none => { wh with episode := episodes }
  | some (fid, file) =>
      { wh with
        episode := episodes
        episodeFile :=
          tombstoneSuperseded (upsertEpisodeFile wh.episodeFile inst episode.id fid file tag) inst
            EpisodeFileCols.episodeSourceId episode.id fid }

/-- `_write_webhook_episodes`. -/
def writeWebhookEpisodes (inst : String) (tag : WriteTag) (episodes : List EpisodePayload)
    (wh : Warehouse) : Warehouse :=
  episodes.foldl (writeWebhookEpisode inst tag) wh

/-- `_tombstone_webhook_series_delete`. -/
def tombstoneWebhookSeriesDelete (inst : String) (seriesIds : List Int) (wh : Warehouse) :
    Warehouse :=
  { wh with
    episodeFile := tombstoneEpisodeFilesForSeries wh.episodeFile wh.episode inst seriesIds
    series := markDeletedSourceIds wh.series inst seriesIds }

/-- `_tombstone_webhook_episodes`. -/
def tombstoneWebhookEpisodes (inst : String) (episodeIds : List Int) (wh : Warehouse) :
    Warehouse :=
  { wh with episode := markDeletedSourceIds wh.episode inst episodeIds }

/-- The body of the loop of `_write_webhook_movies`. -/
def writeWebhookMovie (inst : String) (tag : WriteTag) (wh : Warehouse) (movie : MoviePayload) :
    Warehouse :=
  let movies := upsertMovie wh.movie inst movie tag
  match movie.carriedFile with
  | none => { wh with movie := movies }
  | some (fid, file) =>
      { wh with
        movie := movies
        movieFile :=
          tombstoneSuperseded (upsertMovieFile wh.movieFile inst movie.id fid file tag) inst
            MovieFileCols.movieSourceId movie.id fid }

/-- `_write_webhook_movies`. -/
def writeWebhookMovies (inst : String) (tag : WriteTag) (movies : List MoviePayload)
    (deletedMovieIds : List Int) (wh : Warehouse) : Warehouse :=
  let written := movies.foldl (writeWebhookMovie inst tag) wh
  { written with movie := markDeletedSourceIds written.movie inst deletedMovieIds }

/-! ## Routing -/

/-- The clients of the enabled integrations, by instance name. -/
structure Integrations where
  sonarr : String → Option SonarrClient
  radarr : String → Option RadarrClient

/-- `_integration_by_name`: a missing or disabled integration fails the job. -/
def integrationByName {α : Type} (clients : String → Option α) (inst : String) :
    Except SyncError α :=
  match clients inst with
  | some client => .ok client
  | none => .error (.runtime ("integration '" ++ inst ++ "' not found or disabled"))

/-- The Sonarr arm of `process_webhook_queue`. -/
def processSonarrJob (clients : Integrations) (tag : WriteTag) (job : WebhookJob)
    (wh : Warehouse) : Except SyncError Warehouse := do
  let inst := job.payload.instance
  let client ← integrationByName clients.sonarr inst
  let seriesId := job.payload.seriesId.filter (· ≠ 0)
  if containsWord "delete" job.eventType then
    if containsWord "series" job.eventType then
      return tombstoneWebhookSeriesDelete inst seriesId.toList wh
    else
      return tombstoneWebhookEpisodes inst job.payload.deletedEpisodeIds wh
  else
    match seriesId with
    | none => return wh
    | some sid =>
        let episodes ← client.listEpisodes sid
        return writeWebhookEpisodes inst tag episodes wh

/-- The movies the Radarr arm fetches. -/
def webhookMovies (client : RadarrClient) (isDelete : Bool) (movieId : Option Int) :
    Except SyncError (List MoviePayload) :=
  if isDelete then .ok []
  else
    match movieId with
    | none => client.listMovies
    | some mid =>
        match client.getMovie mid with
        | .error e => .error e
        | .ok (.row movie) => .ok [movie]
        | .ok .missing => .ok []
        | .ok .blank => .ok []

/-- The Radarr arm of `process_webhook_queue`. -/
def processRadarrJob (clients : Integrations) (tag : WriteTag) (job : WebhookJob)
    (wh : Warehouse) : Except SyncError Warehouse := do
  let inst := job.payload.instance
  let client ← integrationByName clients.radarr inst
  let movieId := job.payload.movieId.filter (· ≠ 0)
  let isDelete := containsWord "delete" job.eventType
  let movies ← webhookMovies client isDelete movieId
  let deletedMovieIds := if isDelete then movieId.toList else []
  return writeWebhookMovies inst tag movies deletedMovieIds wh

/-- The warehouse part of one round of `process_webhook_queue`. -/
def processWebhookJob (clients : Integrations) (tag : WriteTag) (job : WebhookJob)
    (wh : Warehouse) : Except SyncError Warehouse :=
  match job.source with
  | .sonarr => processSonarrJob clients tag job wh
  | .radarr => processRadarrJob clients tag job wh

/-! ## What a webhook write does to a row

A webhook write upserts one owner after the other and, after each file,
flags the other live files of its owner.  Both file tables go through the
same fold. -/

section ReplaceFiles

variable {α : Type} (inst : String) (parent : α → Int) (fresh : CarriedFile → α)
  (merge : CarriedFile → α → α)

/-- Upsert each file and flag its siblings. -/
def replaceFiles (files : List CarriedFile) (t : WarehouseTable α) : WarehouseTable α :=
  files.foldl (fun t f =>
    tombstoneSuperseded (t.upsertLive ⟨f.fileId, inst⟩ (fresh f) (merge f)) inst parent f.ownerId
      f.fileId) t

variable {inst parent fresh merge} (hfresh : ∀ f, parent (fresh f) = f.ownerId)
  (hmerge : ∀ f a, parent (merge f a) = parent a)
include hfresh hmerge

private theorem parentLink_replaceOne (t : WarehouseTable α) (f : CarriedFile) (fid : Int) :
    parentLink parent (t.upsertLive ⟨f.fileId, inst⟩ (fresh f) (merge f)) ⟨fid, inst⟩ =
      (parentLink parent t ⟨fid, inst⟩).or (if f.fileId = fid then some f.ownerId else none) := by
  unfold parentLink
  rw [KeyedTable.cols_upsertLive]
  by_cases h : fid = f.fileId
  · subst h
    cases t.cols ⟨f.fileId, inst⟩ <;> simp [hfresh, hmerge]
  · have h' : ¬ f.fileId = fid := fun heq => h heq.symm
    simp [h, h']

/-- Files stay where they are filed; a new one is filed under the owner that
carries it first. -/
theorem parentLink_replaceFiles (files : List CarriedFile) (t : WarehouseTable α) (fid : Int) :
    parentLink parent (replaceFiles inst parent fresh merge files t) ⟨fid, inst⟩ =
      (parentLink parent t ⟨fid, inst⟩).or (firstOwnerOf files fid) := by
  unfold replaceFiles
  induction files generalizing t with
  | nil => simp [firstOwnerOf]
  | cons f rest ih =>
      rw [List.foldl_cons, ih, parentLink_tombstoneSuperseded, parentLink_replaceOne hfresh hmerge]
      by_cases h : f.fileId = fid
      · cases parentLink parent t ⟨fid, inst⟩ <;> simp [firstOwnerOf, h]
      · cases parentLink parent t ⟨fid, inst⟩ <;> simp [firstOwnerOf, h]

omit hfresh hmerge in
/-- Only files of the batch become live. -/
theorem isLive_of_replaceFiles {files : List CarriedFile} {t : WarehouseTable α} {fid : Int}
    (h : (replaceFiles inst parent fresh merge files t).isLive ⟨fid, inst⟩ = true) :
    fid ∈ files.map CarriedFile.fileId ∨ t.isLive ⟨fid, inst⟩ = true := by
  unfold replaceFiles at h
  induction files generalizing t with
  | nil => exact Or.inr h
  | cons f rest ih =>
      rcases ih h with hrest | hlive
      · exact Or.inl (List.mem_cons_of_mem _ hrest)
      · rw [isLive_tombstoneSuperseded, KeyedTable.isLive_upsertLive, Bool.and_eq_true,
          Bool.or_eq_true, decide_eq_true_eq] at hlive
        rcases hlive.1 with hkey | hbefore
        · obtain rfl : fid = f.fileId := congrArg RowKey.sourceId hkey
          exact Or.inl List.mem_cons_self
        · exact Or.inr hbefore

/-- A file of the batch, or one that was live, is live afterwards unless the
batch brings another file of the owner it ends up filed under. -/
theorem isLive_replaceFiles {files : List CarriedFile} {t : WarehouseTable α} {fid : Int}
    (hlive : fid ∈ files.map CarriedFile.fileId ∨ t.isLive ⟨fid, inst⟩ = true)
    (hkept : ∀ f ∈ files,
      (parentLink parent t ⟨fid, inst⟩).or (firstOwnerOf files fid) = some f.ownerId →
        f.fileId = fid) :
    (replaceFiles inst parent fresh merge files t).isLive ⟨fid, inst⟩ = true := by
  unfold replaceFiles
  induction files generalizing t with
  | nil => simpa using hlive
  | cons f rest ih =>
      have hlink : (parentLink parent (tombstoneSuperseded
            (t.upsertLive ⟨f.fileId, inst⟩ (fresh f) (merge f)) inst parent f.ownerId f.fileId)
            ⟨fid, inst⟩).or (firstOwnerOf rest fid) =
          (parentLink parent t ⟨fid, inst⟩).or (firstOwnerOf (f :: rest) fid) := by
        rw [parentLink_tombstoneSuperseded, parentLink_replaceOne hfresh hmerge]
        by_cases h : f.fileId = fid
        · cases parentLink parent t ⟨fid, inst⟩ <;> simp [firstOwnerOf, h]
        · cases parentLink parent t ⟨fid, inst⟩ <;> simp [firstOwnerOf, h]
      rw [List.foldl_cons]
      apply ih
      · by_cases hfid : f.fileId = fid
        · right
          simp [isLive_tombstoneSuperseded, KeyedTable.isLive_upsertLive, hfid]
        · rw [List.map_cons, List.mem_cons, or_assoc] at hlive
          rcases hlive with heq | hrest | hbefore
          · exact absurd heq.symm hfid
          · exact Or.inl hrest
          · right
            -- a live file is on file, so its link is the one it ends up with
            obtain ⟨c, hc⟩ := KeyedTable.exists_cols_of_isLive hbefore
            have hon : parentLink parent t ⟨fid, inst⟩ = some (parent c) := by
              rw [parentLink, hc, Option.map_some]
            have howner : parent c ≠ f.ownerId := by
              intro heq
              refine hfid (hkept f List.mem_cons_self ?_)
              rw [hon, Option.some_or, heq]
            rw [isLive_tombstoneSuperseded, KeyedTable.isLive_upsertLive, hbefore,
              parentLink_replaceOne hfresh hmerge, hon]
            simp [howner]
      · intro g hg
        rw [hlink]
        exact hkept g (List.mem_cons_of_mem _ hg)

/-- A file the batch does not bring goes with the owners of the batch. -/
theorem isLive_replaceFiles_of_notMem {files : List CarriedFile} {t : WarehouseTable α}
    {fid : Int} (hfid : fid ∉ files.map CarriedFile.fileId) :
    (replaceFiles inst parent fresh merge files t).isLive ⟨fid, inst⟩ =
      (t.isLive ⟨fid, inst⟩ &&
        !decide (FiledUnder (parentLink parent t ⟨fid, inst⟩)
          (files.map CarriedFile.ownerId))) := by
  unfold replaceFiles
  induction files generalizing t with
  | nil => simp
  | cons f rest ih =>
      rw [List.map_cons, List.mem_cons, not_or] at hfid
      obtain ⟨hne, hrest⟩ := hfid
      have hlink : parentLink parent (t.upsertLive ⟨f.fileId, inst⟩ (fresh f) (merge f))
          ⟨fid, inst⟩ = parentLink parent t ⟨fid, inst⟩ := by
        rw [parentLink_replaceOne hfresh hmerge, if_neg (Ne.symm hne), Option.or_none]
      rw [List.foldl_cons, ih hrest, parentLink_tombstoneSuperseded, isLive_tombstoneSuperseded,
        KeyedTable.isLive_upsertLive, hlink]
      cases parentLink parent t ⟨fid, inst⟩ with
      | none => simp [hne]
      | some pid => by_cases h : pid = f.ownerId <;> simp [hne, h]

/-- The last file of a batch flags the other files of its owner for good. -/
theorem isLive_replaceFiles_concat {files : List CarriedFile} {last : CarriedFile}
    {t : WarehouseTable α} {fid : Int} (hfid : fid ≠ last.fileId)
    (hlink : (parentLink parent t ⟨fid, inst⟩).or (firstOwnerOf files fid) = some last.ownerId) :
    (replaceFiles inst parent fresh merge (files ++ [last]) t).isLive ⟨fid, inst⟩ = false := by
  have hbefore : parentLink parent (replaceFiles inst parent fresh merge files t) ⟨fid, inst⟩ = _ :=
    parentLink_replaceFiles hfresh hmerge files t fid
  unfold replaceFiles at hbefore ⊢
  rw [List.foldl_append, List.foldl_cons, List.foldl_nil, isLive_tombstoneSuperseded,
    parentLink_replaceOne hfresh hmerge, hbefore, hlink]
  simp [hfid]

omit hfresh hmerge in
/-- The other instances' files stay as they are. -/
theorem sameElsewhere_replaceFiles (files : List CarriedFile) (t : WarehouseTable α) :
    SameElsewhere inst t (replaceFiles inst parent fresh merge files t) := by
  unfold replaceFiles
  induction files generalizing t with
  | nil => exact SameElsewhere.refl t
  | cons f rest ih =>
      refine SameElsewhere.trans ?_ (ih _)
      intro k hk
      have hne : k ≠ ⟨f.fileId, inst⟩ := fun heq => hk (congrArg RowKey.instanceName heq)
      change (tombstoneSuperseded (t.upsertLive ⟨f.fileId, inst⟩ (fresh f) (merge f)) inst parent
        f.ownerId f.fileId).row k = t.row k
      rw [tombstoneSuperseded, KeyedTable.row_markDeletedWhere_of_not (fun _ => by simp [hk]),
        KeyedTable.upsertLive, KeyedTable.row_upsert_of_ne hne]

end ReplaceFiles

section WebhookRows

variable (inst : String) (tag : WriteTag)

/-- `episode_file` after a webhook write. -/
def replaceEpisodeFiles (t : WarehouseTable EpisodeFileCols) (files : List CarriedFile) :
    WarehouseTable EpisodeFileCols :=
  replaceFiles inst EpisodeFileCols.episodeSourceId
    (fun f => EpisodeFileCols.mk f.ownerId (mediaCols tag.lower f.file) tag.syncSource tag.runId)
    (fun f old =>
      EpisodeFileCols.mk old.episodeSourceId (mediaCols tag.lower f.file) tag.syncSource tag.runId)
    files t

/-- `movie_file` after a webhook write. -/
def replaceMovieFiles (t : WarehouseTable MovieFileCols) (files : List CarriedFile) :
    WarehouseTable MovieFileCols :=
  replaceFiles inst MovieFileCols.movieSourceId
    (fun f => MovieFileCols.mk f.ownerId (mediaCols tag.lower f.file) tag.syncSource tag.runId)
    (fun f old =>
      MovieFileCols.mk old.movieSourceId (mediaCols tag.lower f.file) tag.syncSource tag.runId)
    files t

/-- Where the files of a webhook write are filed. -/
theorem episodeLink_replaceEpisodeFiles (t : WarehouseTable EpisodeFileCols)
    (files : List CarriedFile) (fid : Int) :
    parentLink EpisodeFileCols.episodeSourceId (replaceEpisodeFiles inst tag t files) ⟨fid, inst⟩ =
      (parentLink EpisodeFileCols.episodeSourceId t ⟨fid, inst⟩).or (firstOwnerOf files fid) := by
  unfold replaceEpisodeFiles
  apply parentLink_replaceFiles
  · exact fun _ => rfl
  · exact fun _ _ => rfl

theorem movieLink_replaceMovieFiles (t : WarehouseTable MovieFileCols)
    (files : List CarriedFile) (fid : Int) :
    parentLink MovieFileCols.movieSourceId (replaceMovieFiles inst tag t files) ⟨fid, inst⟩ =
      (parentLink MovieFileCols.movieSourceId t ⟨fid, inst⟩).or (firstOwnerOf files fid) := by
  unfold replaceMovieFiles
  apply parentLink_replaceFiles
  · exact fun _ => rfl
  · exact fun _ _ => rfl

/-- A carried file that is filed under an owner outside the batch is live. -/
theorem isLive_replaceEpisodeFiles {t : WarehouseTable EpisodeFileCols} {files : List CarriedFile}
    {fid eid : Int} (hfid : fid ∈ files.map CarriedFile.fileId)
    (hlink : parentLink EpisodeFileCols.episodeSourceId t ⟨fid, inst⟩ = some eid)
    (hforeign : eid ∉ files.map CarriedFile.ownerId) :
    (replaceEpisodeFiles inst tag t files).isLive ⟨fid, inst⟩ = true := by
  unfold replaceEpisodeFiles
  apply isLive_replaceFiles
  · exact fun _ => rfl
  · exact fun _ _ => rfl
  · exact Or.inl hfid
  · rintro f hf howner
    rw [hlink, Option.some_or, Option.some.injEq] at howner
    exact absurd (howner ▸ List.mem_map_of_mem hf) hforeign

theorem isLive_replaceMovieFiles {t : WarehouseTable MovieFileCols} {files : List CarriedFile}
    {fid mid : Int} (hfid : fid ∈ files.map CarriedFile.fileId)
    (hlink : parentLink MovieFileCols.movieSourceId t ⟨fid, inst⟩ = some mid)
    (hforeign : mid ∉ files.map CarriedFile.ownerId) :
    (replaceMovieFiles inst tag t files).isLive ⟨fid, inst⟩ = true := by
  unfold replaceMovieFiles
  apply isLive_replaceFiles
  · exact fun _ => rfl
  · exact fun _ _ => rfl
  · exact Or.inl hfid
  · rintro f hf howner
    rw [hlink, Option.some_or, Option.some.injEq] at howner
    exact absurd (howner ▸ List.mem_map_of_mem hf) hforeign

/-- The webhook write, table by table. -/
theorem writeWebhookEpisodes_eq (episodes : List EpisodePayload) (wh : Warehouse) :
    writeWebhookEpisodes inst tag episodes wh =
      { wh with
        episode := upsertEpisodes wh.episode inst tag episodes
        episodeFile := replaceEpisodeFiles inst tag wh.episodeFile (episodeFilesOf episodes) } := by
  unfold writeWebhookEpisodes
  induction episodes generalizing wh with
  | nil => rfl
  | cons e rest ih =>
      rw [List.foldl_cons, ih]
      cases hf : e.carriedFile with
      | none => simp [writeWebhookEpisode, hf, upsertEpisodes, episodeFilesOf]
      | some f =>
          simp [writeWebhookEpisode, hf, upsertEpisodes, episodeFilesOf, replaceEpisodeFiles,
            replaceFiles, upsertEpisodeFile]

theorem foldl_writeWebhookMovie (movies : List MoviePayload) (wh : Warehouse) :
    movies.foldl (writeWebhookMovie inst tag) wh =
      { wh with
        movie := upsertMovies wh.movie inst tag movies
        movieFile := replaceMovieFiles inst tag wh.movieFile (movieFilesOf movies) } := by
  induction movies generalizing wh with
  | nil => rfl
  | cons m rest ih =>
      rw [List.foldl_cons, ih]
      cases hf : m.carriedFile with
      | none => simp [writeWebhookMovie, hf, upsertMovies, movieFilesOf]
      | some f =>
          simp [writeWebhookMovie, hf, upsertMovies, movieFilesOf, replaceMovieFiles,
            replaceFiles, upsertMovieFile]

end WebhookRows

end Nebularr
