import Nebularr.ArrClient
import Nebularr.ChunkLoop
import Nebularr.SyncWrites

/-!
# The full and reconcile runs

`_sync_sonarr_full` and `_sync_radarr_full`: fetch the library list, write it
chunk by chunk under a stop check, and finish with a guarded set-difference
tombstone pass.  The two functions are one pass (`fullPass`) over different
bodies.

* `fullPass_completed`: an uninterrupted pass is the fold of its bodies
  followed by the tombstones, so chunk borders leave no trace;
* `fullPass_keeps`: what bodies and tombstones keep, the pass keeps, however
  it ended;
* `fullPass_stopped`: a stop request that is not withdrawn leaves the
  tombstones out.

From these: a completed run leaves live exactly the ids it fetched, an
interrupted or refused one flags nothing, and no run touches a row of another
instance.
-/

namespace Nebularr

/-! ## The pass -/

/-- What a run leaves behind: the committed warehouse, and its record count or
the error that failed it. -/
structure RunOutcome where
  wh : Warehouse
  result : Except SyncError Nat

section FullPass

variable {χ Seen : Type}

/-- Chunk loop, last stop check, tombstones. -/
def fullPass (stop : ℕ → Bool) (body : χ → WriteState Seen → Except SyncError (WriteState Seen))
    (tombstones : WriteState Seen → Except SyncError Warehouse) (chunks : List χ)
    (s : WriteState Seen) : RunOutcome :=
  let exit := chunkLoop stop body 0 chunks s
  match exit.error with
  | some e => ⟨exit.state.wh, .error e⟩
  | none =>
      if stop exit.checks then ⟨exit.state.wh, .ok exit.state.records⟩
      else
        match tombstones exit.state with
        | .error e => ⟨exit.state.wh, .error e⟩
        | .ok wh => ⟨wh, .ok exit.state.records⟩

variable {stop : ℕ → Bool} {body : χ → WriteState Seen → Except SyncError (WriteState Seen)}
  {tombstones : WriteState Seen → Except SyncError Warehouse} {chunks : List χ}
  {s : WriteState Seen}

/-- An uninterrupted pass whose bodies and tombstones succeed. -/
theorem fullPass_completed (step : χ → WriteState Seen → WriteState Seen)
    (hstop : ∀ n, stop n = false) (hbody : ∀ chunk ∈ chunks, ∀ s, body chunk s = .ok (step chunk s))
    {wh : Warehouse} (htomb : tombstones (chunks.foldl (fun s c => step c s) s) = .ok wh) :
    fullPass stop body tombstones chunks s =
      ⟨wh, .ok (chunks.foldl (fun s c => step c s) s).records⟩ := by
  have hloop : chunkLoop stop body 0 chunks s =
      ⟨chunks.foldl (fun s c => step c s) s, 0 + chunks.length, false, none⟩ :=
    chunkLoop_ok step hbody fun m _ _ => hstop m
  simp [fullPass, hloop, hstop, htomb]

/-- **What a pass keeps.**  `inv` is what the chunk writes keep; a pass that
reaches its tombstones must get `P` from them as well. -/
theorem fullPass_keeps (inv : WriteState Seen → Prop) (P : Warehouse → Prop)
    (hbody : ∀ chunk ∈ chunks, ∀ s s', inv s → body chunk s = .ok s' → inv s')
    (hinv : ∀ s, inv s → P s.wh) (htomb : ∀ s wh, inv s → tombstones s = .ok wh → P wh)
    (hs : inv s) : P (fullPass stop body tombstones chunks s).wh := by
  have hexit : inv (chunkLoop stop body 0 chunks s).state := chunkLoop_invariant inv hbody hs
  simp only [fullPass]
  split
  · exact hinv _ hexit
  · split
    · exact hinv _ hexit
    · split
      · exact hinv _ hexit
      · next wh htombs => exact htomb _ wh hexit htombs

/-- **A stopped pass marks nothing.**  If some check before the last chunk
reads a stop request, and the request stands from then on, the pass is over
before its tombstones. -/
theorem fullPass_stopped (inv : WriteState Seen → Prop) (P : Warehouse → Prop)
    (hbody : ∀ chunk ∈ chunks, ∀ s s', inv s → body chunk s = .ok s' → inv s')
    (hinv : ∀ s, inv s → P s.wh) (hs : inv s)
    (hstand : ∀ n, stop n = true → stop (n + 1) = true)
    (hrequest : ∃ n < chunks.length, stop n = true) :
    P (fullPass stop body tombstones chunks s).wh := by
  have hexit : inv (chunkLoop stop body 0 chunks s).state := chunkLoop_invariant inv hbody hs
  simp only [fullPass]
  split
  · exact hinv _ hexit
  · next herror =>
      have hlast : stop (chunkLoop stop body 0 chunks s).checks = true := by
        cases hstopped : (chunkLoop stop body 0 chunks s).stopped with
        | true =>
            obtain ⟨m, hchecks, hm⟩ := chunkLoop_stopped hstopped
            rw [hchecks]
            exact hstand m hm
        | false =>
            obtain ⟨_, hno⟩ := chunkLoop_completed hstopped herror
            obtain ⟨n, hn, hreq⟩ := hrequest
            have hfalse := hno n (Nat.zero_le n) (by omega)
            rw [hreq] at hfalse
            cases hfalse
      rw [if_pos hlast]
      exact hinv _ hexit

end FullPass

/-- `_mark_full_sync_tombstones`: `primaryLive` counts the live rows of the
primary table, `mark` runs the tombstone statements. -/
def markFullSyncTombstones (fetchedCount primaryLive : Nat) (mark : Warehouse → Warehouse)
    (wh : Warehouse) : Except SyncError Warehouse :=
  if fetchedCount = 0 ∧ primaryLive > 0 then
    .error (.runtime "empty fetch with non-empty warehouse — refusing to tombstone")
  else .ok (mark wh)

/-! ## Sonarr -/

/-- One chunk of series with their episode lists. -/
def fetchEpisodeLists (client : SonarrClient) (chunk : List SeriesPayload) :
    Except SyncError (List FetchedSeries) :=
  chunk.mapM fun row => (client.listEpisodes row.id).map fun episodes => (row, episodes)

/-- The body of the chunk loop of `_sync_sonarr_full`. -/
def fetchAndWriteChunk (client : SonarrClient) (inst : String) (tag : WriteTag)
    (chunk : List SeriesPayload) (s : WriteState SonarrSeen) :
    Except SyncError (WriteState SonarrSeen) :=
  (fetchEpisodeLists client chunk).map fun fetched => writeSonarrChunk inst tag fetched s

/-- The three tombstone statements of a Sonarr run. -/
def sonarrTombstones (inst : String) (seen : SonarrSeen) (wh : Warehouse) : Warehouse :=
  { wh with
    series := markTombstones wh.series inst seen.series
    episode := markTombstones wh.episode inst seen.episodes
    episodeFile := markTombstones wh.episodeFile inst seen.files }

/-- `_sync_sonarr_full` with a given chunk size. -/
def syncSonarrFullBy (size : ℕ+) (client : SonarrClient) (stop : ℕ → Bool) (inst : String)
    (tag : WriteTag) (wh : Warehouse) : RunOutcome :=
  match client.listSeries with
  | .error e => ⟨wh, .error e⟩
  | .ok series =>
      fullPass stop (fetchAndWriteChunk client inst tag)
        (fun s => markFullSyncTombstones series.length (countNonDeletedRows s.wh.series inst)
          (sonarrTombstones inst s.seen) s.wh)
        (slices size series) ⟨wh, {}, 0⟩

/-- `_sync_sonarr_full`. -/
def syncSonarrFull (client : SonarrClient) : (ℕ → Bool) → String → WriteTag → Warehouse →
    RunOutcome :=
  syncSonarrFullBy (fetchChunkSize client.maxParallelRequests) client

/-! ## Radarr -/

/-- `write_batch`. -/
def writeBatch : ℕ+ := 200

/-- The two tombstone statements of a Radarr run. -/
def radarrTombstones (inst : String) (seen : RadarrSeen) (wh : Warehouse) : Warehouse :=
  { wh with
    movie := markTombstones wh.movie inst seen.movies
    movieFile := markTombstones wh.movieFile inst seen.files }

/-- `_sync_radarr_full` with a given batch size. -/
def syncRadarrFullBy (size : ℕ+) (client : RadarrClient) (stop : ℕ → Bool) (inst : String)
    (tag : WriteTag) (wh : Warehouse) : RunOutcome :=
  match client.listMovies with
  | .error e => ⟨wh, .error e⟩
  | .ok movies =>
      fullPass stop (fun batch s => .ok (writeRadarrChunk inst tag batch s))
        (fun s => markFullSyncTombstones movies.length (countNonDeletedRows s.wh.movie inst)
          (radarrTombstones inst s.seen) s.wh)
        (slices size movies) ⟨wh, {}, 0⟩

/-- `_sync_radarr_full`. -/
def syncRadarrFull (client : RadarrClient) : (ℕ → Bool) → String → WriteTag → Warehouse →
    RunOutcome :=
  syncRadarrFullBy writeBatch client

/-! ## Chunk borders leave no trace -/

/-- Writing chunk after chunk is writing their concatenation. -/
theorem foldl_writeSonarrChunk (inst : String) (tag : WriteTag) (chunks : List (List FetchedSeries))
    (s : WriteState SonarrSeen) :
    chunks.foldl (fun s c => writeSonarrChunk inst tag c s) s =
      writeSonarrChunk inst tag chunks.flatten s := by
  simp only [writeSonarrChunk, List.foldl_flatten]

/-- Writing batch after batch is writing their concatenation. -/
theorem foldl_writeRadarrChunk (inst : String) (tag : WriteTag) (batches : List (List MoviePayload))
    (s : WriteState RadarrSeen) :
    batches.foldl (fun s c => writeRadarrChunk inst tag c s) s =
      writeRadarrChunk inst tag batches.flatten s := by
  simp only [writeRadarrChunk, List.foldl_flatten]

/-- The library a Sonarr run fetches: each listed series with its episodes. -/
def fetchedLibrary (series : List SeriesPayload) (episodesFor : Int → List EpisodePayload) :
    List FetchedSeries :=
  series.map fun row => (row, episodesFor row.id)

theorem chunkSeriesIds_fetchedLibrary (series : List SeriesPayload)
    (episodesFor : Int → List EpisodePayload) :
    chunkSeriesIds (fetchedLibrary series episodesFor) = series.map SeriesPayload.id := by
  simp [chunkSeriesIds, fetchedLibrary]

theorem chunkEpisodes_fetchedLibrary (series : List SeriesPayload)
    (episodesFor : Int → List EpisodePayload) :
    chunkEpisodes (fetchedLibrary series episodesFor) =
      series.flatMap fun row => episodesFor row.id := by
  simp [chunkEpisodes, fetchedLibrary, List.flatMap_map]

/-- A chunk whose episode calls all answer is fetched as it stands. -/
theorem fetchAndWriteChunk_ok {client : SonarrClient} {episodesFor : Int → List EpisodePayload}
    {chunk : List SeriesPayload}
    (hepisodes : ∀ row ∈ chunk, client.listEpisodes row.id = .ok (episodesFor row.id))
    (inst : String) (tag : WriteTag) (s : WriteState SonarrSeen) :
    fetchAndWriteChunk client inst tag chunk s =
      .ok (writeSonarrChunk inst tag (fetchedLibrary chunk episodesFor) s) := by
  have hfetch : fetchEpisodeLists client chunk = .ok (fetchedLibrary chunk episodesFor) := by
    apply mapM_eq_ok
    intro row hrow
    rw [hepisodes row hrow]
    rfl
  rw [fetchAndWriteChunk, hfetch]
  rfl

/-- The warehouse a Sonarr run has committed when it starts its tombstones. -/
def writtenSonarr (inst : String) (tag : WriteTag) (series : List SeriesPayload)
    (episodesFor : Int → List EpisodePayload) (wh : Warehouse) : WriteState SonarrSeen :=
  writeSonarrChunk inst tag (fetchedLibrary series episodesFor) ⟨wh, {}, 0⟩

/-- **An uninterrupted Sonarr run**, whatever the chunk size: one write of the
whole library, then the three tombstone statements. -/
theorem syncSonarrFullBy_completed {size : ℕ+} {client : SonarrClient} {stop : ℕ → Bool}
    {inst : String}
    {tag : WriteTag} {wh : Warehouse} {series : List SeriesPayload}
    {episodesFor : Int → List EpisodePayload} (hstop : ∀ n, stop n = false)
    (hseries : client.listSeries = .ok series) (hne : series ≠ [])
    (hepisodes : ∀ row ∈ series, client.listEpisodes row.id = .ok (episodesFor row.id)) :
    syncSonarrFullBy size client stop inst tag wh =
      ⟨sonarrTombstones inst (writtenSonarr inst tag series episodesFor wh).seen
          (writtenSonarr inst tag series episodesFor wh).wh,
        .ok (writtenSonarr inst tag series episodesFor wh).records⟩ := by
  let step := fun (chunk : List SeriesPayload) (s : WriteState SonarrSeen) =>
    writeSonarrChunk inst tag (fetchedLibrary chunk episodesFor) s
  have hbody : ∀ chunk ∈ slices size series, ∀ s,
      fetchAndWriteChunk client inst tag chunk s = .ok (step chunk s) := by
    intro chunk hchunk s
    apply fetchAndWriteChunk_ok
    intro row hrow
    exact hepisodes row (mem_slices_iff.mp ⟨chunk, hchunk, hrow⟩)
  have hfold : (slices size series).foldl (fun s c => step c s) ⟨wh, {}, 0⟩ =
      writtenSonarr inst tag series episodesFor wh := by
    have hmap : (slices size series).foldl (fun s c => step c s) ⟨wh, {}, 0⟩ =
        ((slices size series).map fun chunk => fetchedLibrary chunk episodesFor).foldl
          (fun s c => writeSonarrChunk inst tag c s) ⟨wh, {}, 0⟩ := by
      rw [List.foldl_map]
    have hflat : ((slices size series).map fun chunk => fetchedLibrary chunk episodesFor).flatten =
        fetchedLibrary series episodesFor := by
      unfold fetchedLibrary
      rw [← List.map_flatten, flatten_slices]
    rw [hmap, foldl_writeSonarrChunk, hflat, writtenSonarr]
  have htomb : markFullSyncTombstones series.length
      (countNonDeletedRows ((slices size series).foldl (fun s c => step c s) ⟨wh, {}, 0⟩).wh.series
        inst)
      (sonarrTombstones inst ((slices size series).foldl (fun s c => step c s) ⟨wh, {}, 0⟩).seen)
      ((slices size series).foldl (fun s c => step c s) ⟨wh, {}, 0⟩).wh =
        .ok (sonarrTombstones inst (writtenSonarr inst tag series episodesFor wh).seen
          (writtenSonarr inst tag series episodesFor wh).wh) := by
    rw [hfold]
    simp [markFullSyncTombstones, hne]
  rw [syncSonarrFullBy, hseries]
  simp only
  rw [fullPass_completed step hstop hbody htomb, hfold]

/-- The warehouse a Radarr run has committed when it starts its tombstones. -/
def writtenRadarr (inst : String) (tag : WriteTag) (movies : List MoviePayload)
    (wh : Warehouse) : WriteState RadarrSeen :=
  writeRadarrChunk inst tag movies ⟨wh, {}, 0⟩

/-- An uninterrupted Radarr run. -/
theorem syncRadarrFullBy_completed {size : ℕ+} {client : RadarrClient} {stop : ℕ → Bool}
    {inst : String}
    {tag : WriteTag} {wh : Warehouse} {movies : List MoviePayload} (hstop : ∀ n, stop n = false)
    (hmovies : client.listMovies = .ok movies) (hne : movies ≠ []) :
    syncRadarrFullBy size client stop inst tag wh =
      ⟨radarrTombstones inst (writtenRadarr inst tag movies wh).seen
          (writtenRadarr inst tag movies wh).wh,
        .ok (writtenRadarr inst tag movies wh).records⟩ := by
  let step := fun (batch : List MoviePayload) (s : WriteState RadarrSeen) =>
    writeRadarrChunk inst tag batch s
  have hbody : ∀ batch ∈ slices size movies, ∀ s,
      (Except.ok (writeRadarrChunk inst tag batch s) : Except SyncError _) = .ok (step batch s) :=
    fun _ _ _ => rfl
  have hfold : (slices size movies).foldl (fun s c => step c s) ⟨wh, {}, 0⟩ =
      writtenRadarr inst tag movies wh := by
    rw [foldl_writeRadarrChunk, flatten_slices, writtenRadarr]
  have htomb : markFullSyncTombstones movies.length
      (countNonDeletedRows
        ((slices size movies).foldl (fun s c => step c s) ⟨wh, {}, 0⟩).wh.movie inst)
      (radarrTombstones inst
        ((slices size movies).foldl (fun s c => step c s) ⟨wh, {}, 0⟩).seen)
      ((slices size movies).foldl (fun s c => step c s) ⟨wh, {}, 0⟩).wh =
        .ok (radarrTombstones inst (writtenRadarr inst tag movies wh).seen
          (writtenRadarr inst tag movies wh).wh) := by
    rw [hfold]
    simp [markFullSyncTombstones, hne]
  rw [syncRadarrFullBy, hmovies]
  simp only
  rw [fullPass_completed step hstop hbody htomb, hfold]

/-! ## Exactness -/

/-- The live ids of an instance in a table are exactly the listed ones. -/
def LiveExactly {α : Type} (t : WarehouseTable α) (inst : String) (ids : List Int) : Prop :=
  ∀ id, t.isLive ⟨id, inst⟩ = true ↔ id ∈ ids

/-- **The two-sided argument.**  What was written is live, what was seen is
what was written; so the pass keeps the written rows and no other. -/
theorem liveExactly_markTombstones {α : Type} {t : WarehouseTable α} {inst : String}
    {ids : List Int} {seen : Finset Int} (hwritten : ∀ id ∈ ids, t.isLive ⟨id, inst⟩ = true)
    (hseen : ∀ id, id ∈ seen ↔ id ∈ ids) : LiveExactly (markTombstones t inst seen) inst ids := by
  intro id
  rw [isLive_markTombstones]
  constructor
  · intro h
    have hmem : id ∈ seen := by simpa using (Bool.and_eq_true_iff.mp h).2
    exact (hseen id).mp hmem
  · intro h
    have hmem : id ∈ seen := (hseen id).mpr h
    simp [hwritten id h, hmem]

/-- **Completed Sonarr runs are exact**: series, episodes and files. -/
theorem sonarr_completed_exact {size : ℕ+} {client : SonarrClient} {stop : ℕ → Bool} {inst : String}
    {tag : WriteTag} {wh : Warehouse} {series : List SeriesPayload}
    {episodesFor : Int → List EpisodePayload} (hstop : ∀ n, stop n = false)
    (hseries : client.listSeries = .ok series) (hne : series ≠ [])
    (hepisodes : ∀ row ∈ series, client.listEpisodes row.id = .ok (episodesFor row.id)) :
    LiveExactly (syncSonarrFullBy size client stop inst tag wh).wh.series inst
        (series.map SeriesPayload.id) ∧
      LiveExactly (syncSonarrFullBy size client stop inst tag wh).wh.episode inst
        (episodeIds (series.flatMap fun row => episodesFor row.id)) ∧
      LiveExactly (syncSonarrFullBy size client stop inst tag wh).wh.episodeFile inst
        (episodeFileIds (series.flatMap fun row => episodesFor row.id)) := by
  rw [syncSonarrFullBy_completed hstop hseries hne hepisodes]
  simp only [writtenSonarr, writeSonarrChunk_eq, sonarrTombstones, chunkSeriesIds_fetchedLibrary,
    chunkEpisodes_fetchedLibrary]
  refine ⟨?_, ?_, ?_⟩
  · apply liveExactly_markTombstones
    · intro id hid
      simp [fetchedLibrary, Function.comp_def, hid]
    · intro id
      simp
  · apply liveExactly_markTombstones
    · intro id hid
      simp [hid]
    · intro id
      simp
  · apply liveExactly_markTombstones
    · intro id hid
      simp [hid]
    · intro id
      simp

/-- Completed Radarr runs are exact: movies and files. -/
theorem radarr_completed_exact {size : ℕ+} {client : RadarrClient} {stop : ℕ → Bool} {inst : String}
    {tag : WriteTag} {wh : Warehouse} {movies : List MoviePayload} (hstop : ∀ n, stop n = false)
    (hmovies : client.listMovies = .ok movies) (hne : movies ≠ []) :
    LiveExactly (syncRadarrFullBy size client stop inst tag wh).wh.movie inst
        (movies.map MoviePayload.id) ∧
      LiveExactly (syncRadarrFullBy size client stop inst tag wh).wh.movieFile inst
        (movieFileIds movies) := by
  rw [syncRadarrFullBy_completed hstop hmovies hne]
  simp only [writtenRadarr, writeRadarrChunk_eq, radarrTombstones]
  refine ⟨?_, ?_⟩
  · apply liveExactly_markTombstones
    · intro id hid
      rw [isLive_upsertMovies]
      simp [hid]
    · intro id
      simp
  · apply liveExactly_markTombstones
    · intro id hid
      simp [hid]
    · intro id
      simp

/-! ## Runs that are not allowed to flag -/

section Sonarr

variable {size : ℕ+} {client : SonarrClient} {stop : ℕ → Bool} {inst : String} {tag : WriteTag}
  {wh : Warehouse}

/-- What the chunk body of a Sonarr run keeps. -/
theorem fetchAndWriteChunk_keeps {chunk : List SeriesPayload} {s s' : WriteState SonarrSeen}
    (hinv : Warehouse.NoneMarked wh s.wh ∧ SonarrFrame inst wh s.wh)
    (hok : fetchAndWriteChunk client inst tag chunk s = .ok s') :
    Warehouse.NoneMarked wh s'.wh ∧ SonarrFrame inst wh s'.wh := by
  unfold fetchAndWriteChunk at hok
  cases hfetch : fetchEpisodeLists client chunk with
  | error e =>
      rw [hfetch] at hok
      cases hok
  | ok fetched =>
      rw [hfetch] at hok
      cases hok
      exact ⟨hinv.1.trans (writeSonarrChunk_noneMarked inst tag fetched s),
        hinv.2.trans (writeSonarrChunk_frame inst tag fetched s)⟩

theorem sonarrTombstones_frame (seen : SonarrSeen) (w : Warehouse) :
    SonarrFrame inst w (sonarrTombstones inst seen w) :=
  ⟨sameElsewhere_markTombstones _ _, sameElsewhere_markTombstones _ _,
    sameElsewhere_markTombstones _ _, rfl, rfl⟩

/-- A Sonarr run stays inside its instance, however it ends. -/
theorem syncSonarrFullBy_frame :
    SonarrFrame inst wh (syncSonarrFullBy size client stop inst tag wh).wh := by
  unfold syncSonarrFullBy
  split
  · exact SonarrFrame.refl wh
  · apply fullPass_keeps (fun s => Warehouse.NoneMarked wh s.wh ∧ SonarrFrame inst wh s.wh)
      (fun w => SonarrFrame inst wh w)
    · exact fun _ _ _ _ hinv hok => fetchAndWriteChunk_keeps hinv hok
    · exact fun _ hinv => hinv.2
    · intro s w hinv htomb
      unfold markFullSyncTombstones at htomb
      split at htomb
      · cases htomb
      · cases htomb
        exact hinv.2.trans (sonarrTombstones_frame _ _)
    · exact ⟨.refl wh, .refl wh⟩

/-- A Sonarr run that a stop request takes out of its chunk loop flags nothing. -/
theorem syncSonarrFullBy_stopped {series : List SeriesPayload}
    (hseries : client.listSeries = .ok series) (hstand : ∀ n, stop n = true → stop (n + 1) = true)
    (hrequest : ∃ n < (slices size series).length, stop n = true) :
    Warehouse.NoneMarked wh (syncSonarrFullBy size client stop inst tag wh).wh := by
  rw [syncSonarrFullBy, hseries]
  exact fullPass_stopped (fun s => Warehouse.NoneMarked wh s.wh ∧ SonarrFrame inst wh s.wh)
    (fun w => Warehouse.NoneMarked wh w) (fun _ _ _ _ hinv hok => fetchAndWriteChunk_keeps hinv hok)
    (fun _ hinv => hinv.1) ⟨.refl wh, .refl wh⟩ hstand hrequest

/-- **The mass-tombstone guard**: an empty list against live series changes
nothing. -/
theorem syncSonarrFullBy_refused (hseries : client.listSeries = .ok [])
    (hlive : 0 < countNonDeletedRows wh.series inst) :
    (syncSonarrFullBy size client stop inst tag wh).wh = wh := by
  rw [syncSonarrFullBy, hseries]
  simp only [slices_nil, fullPass, chunkLoop]
  split
  · rfl
  · simp [markFullSyncTombstones, hlive]

end Sonarr

section Radarr

variable {size : ℕ+} {client : RadarrClient} {stop : ℕ → Bool} {inst : String} {tag : WriteTag}
  {wh : Warehouse}

/-- What a batch write of a Radarr run keeps. -/
theorem writeRadarrChunk_keeps (batch : List MoviePayload) {s : WriteState RadarrSeen}
    (hinv : Warehouse.NoneMarked wh s.wh ∧ RadarrFrame inst wh s.wh) :
    Warehouse.NoneMarked wh (writeRadarrChunk inst tag batch s).wh ∧
      RadarrFrame inst wh (writeRadarrChunk inst tag batch s).wh :=
  ⟨hinv.1.trans (writeRadarrChunk_noneMarked inst tag batch s),
    hinv.2.trans (writeRadarrChunk_frame inst tag batch s)⟩

theorem radarrTombstones_frame (seen : RadarrSeen) (w : Warehouse) :
    RadarrFrame inst w (radarrTombstones inst seen w) :=
  ⟨sameElsewhere_markTombstones _ _, sameElsewhere_markTombstones _ _, rfl, rfl, rfl⟩

/-- A Radarr run stays inside its instance, however it ends. -/
theorem syncRadarrFullBy_frame :
    RadarrFrame inst wh (syncRadarrFullBy size client stop inst tag wh).wh := by
  unfold syncRadarrFullBy
  split
  · exact RadarrFrame.refl wh
  · apply fullPass_keeps (fun s => Warehouse.NoneMarked wh s.wh ∧ RadarrFrame inst wh s.wh)
      (fun w => RadarrFrame inst wh w)
    · intro batch _ s s' hinv hok
      cases hok
      exact writeRadarrChunk_keeps batch hinv
    · exact fun _ hinv => hinv.2
    · intro s w hinv htomb
      unfold markFullSyncTombstones at htomb
      split at htomb
      · cases htomb
      · cases htomb
        exact hinv.2.trans (radarrTombstones_frame _ _)
    · exact ⟨.refl wh, .refl wh⟩

/-- A Radarr run that a stop request takes out of its loop flags nothing. -/
theorem syncRadarrFullBy_stopped {movies : List MoviePayload}
    (hmovies : client.listMovies = .ok movies) (hstand : ∀ n, stop n = true → stop (n + 1) = true)
    (hrequest : ∃ n < (slices size movies).length, stop n = true) :
    Warehouse.NoneMarked wh (syncRadarrFullBy size client stop inst tag wh).wh := by
  rw [syncRadarrFullBy, hmovies]
  apply fullPass_stopped (fun s => Warehouse.NoneMarked wh s.wh ∧ RadarrFrame inst wh s.wh)
    (fun w => Warehouse.NoneMarked wh w) _ (fun _ hinv => hinv.1) ⟨.refl wh, .refl wh⟩ hstand
    hrequest
  intro batch _ s s' hinv hok
  cases hok
  exact writeRadarrChunk_keeps batch hinv

/-- The mass-tombstone guard, for movies. -/
theorem syncRadarrFullBy_refused (hmovies : client.listMovies = .ok [])
    (hlive : 0 < countNonDeletedRows wh.movie inst) :
    (syncRadarrFullBy size client stop inst tag wh).wh = wh := by
  rw [syncRadarrFullBy, hmovies]
  simp only [slices_nil, fullPass, chunkLoop]
  split
  · rfl
  · simp [markFullSyncTombstones, hlive]

end Radarr

/-! ## The contract of a full run -/

/-- **A full or reconcile run is exact.**  Uninterrupted with a list that is
not empty, it leaves live exactly what it fetched; stopped inside its chunk
loop, or faced with an empty list, it flags nothing; and it never reaches a
row of another instance. -/
theorem full_sync_exact (size : ℕ+) (stop : ℕ → Bool) (inst : String) (tag : WriteTag)
    (wh : Warehouse) :
    (∀ (client : SonarrClient) (series : List SeriesPayload)
        (episodesFor : Int → List EpisodePayload), client.listSeries = .ok series →
      (series ≠ [] → (∀ n, stop n = false) →
        (∀ row ∈ series, client.listEpisodes row.id = .ok (episodesFor row.id)) →
          LiveExactly (syncSonarrFullBy size client stop inst tag wh).wh.series inst
            (series.map SeriesPayload.id) ∧
          LiveExactly (syncSonarrFullBy size client stop inst tag wh).wh.episode inst
            (episodeIds (series.flatMap fun row => episodesFor row.id)) ∧
          LiveExactly (syncSonarrFullBy size client stop inst tag wh).wh.episodeFile inst
            (episodeFileIds (series.flatMap fun row => episodesFor row.id))) ∧
      ((∃ n < (slices size series).length, stop n = true) →
        (∀ n, stop n = true → stop (n + 1) = true) →
          Warehouse.NoneMarked wh (syncSonarrFullBy size client stop inst tag wh).wh) ∧
      (series = [] → 0 < countNonDeletedRows wh.series inst →
        Warehouse.NoneMarked wh (syncSonarrFullBy size client stop inst tag wh).wh)) ∧
    (∀ (client : RadarrClient) (movies : List MoviePayload), client.listMovies = .ok movies →
      (movies ≠ [] → (∀ n, stop n = false) →
          LiveExactly (syncRadarrFullBy size client stop inst tag wh).wh.movie inst
            (movies.map MoviePayload.id) ∧
          LiveExactly (syncRadarrFullBy size client stop inst tag wh).wh.movieFile inst
            (movieFileIds movies)) ∧
      ((∃ n < (slices size movies).length, stop n = true) →
        (∀ n, stop n = true → stop (n + 1) = true) →
          Warehouse.NoneMarked wh (syncRadarrFullBy size client stop inst tag wh).wh) ∧
      (movies = [] → 0 < countNonDeletedRows wh.movie inst →
        Warehouse.NoneMarked wh (syncRadarrFullBy size client stop inst tag wh).wh)) ∧
    (∀ client : SonarrClient,
      SonarrFrame inst wh (syncSonarrFullBy size client stop inst tag wh).wh) ∧
    (∀ client : RadarrClient,
      RadarrFrame inst wh (syncRadarrFullBy size client stop inst tag wh).wh) := by
  refine ⟨?_, ?_, fun client => syncSonarrFullBy_frame, fun client => syncRadarrFullBy_frame⟩
  · intro client series episodesFor hseries
    refine ⟨?_, ?_, ?_⟩
    · intro hne hstop hepisodes
      exact sonarr_completed_exact hstop hseries hne hepisodes
    · intro hrequest hstand
      exact syncSonarrFullBy_stopped hseries hstand hrequest
    · intro hempty hlive
      subst hempty
      rw [syncSonarrFullBy_refused hseries hlive]
      exact .refl wh
  · intro client movies hmovies
    refine ⟨?_, ?_, ?_⟩
    · intro hne hstop
      exact radarr_completed_exact hstop hmovies hne
    · intro hrequest hstand
      exact syncRadarrFullBy_stopped hmovies hstand hrequest
    · intro hempty hlive
      subst hempty
      rw [syncRadarrFullBy_refused hmovies hlive]
      exact .refl wh

/-- A Sonarr with one series, one episode and its file. -/
def oneSeriesClient : SonarrClient where
  seriesRequest := .ok (.items [{ id := 1 }])
  seriesByIdRequest := fun _ => .ok (.object { id := 1 })
  episodeRequest := fun _ _ _ =>
    .ok (.items [{ id := 11, seriesId := 1, episodeFile := some { id := some 21 } }])

/-- A warehouse that still shows an episode Sonarr no longer has. -/
def staleWarehouse : Warehouse :=
  { Warehouse.empty with
    episode := upsertEpisode KeyedTable.empty "default" { id := 12, seriesId := 1 }
      ⟨0, "full", String.toLower⟩ }

/-- The stale episode 12 is gone after the run, episode 11 is there. -/
theorem full_sync_exact_one_series :
    LiveExactly (syncSonarrFullBy 1 oneSeriesClient (fun _ => false) "default"
      ⟨1, "full", String.toLower⟩
      staleWarehouse).wh.episode "default" [11] :=
  (((full_sync_exact 1 (fun _ => false) "default" ⟨1, "full", String.toLower⟩ staleWarehouse).1
    oneSeriesClient [{ id := 1 }]
    (fun _ => [{ id := 11, seriesId := 1, episodeFile := some { id := some 21 } }]) rfl).1
    (by decide) (fun _ => rfl) (fun _ _ => rfl)).2.1

end Nebularr
