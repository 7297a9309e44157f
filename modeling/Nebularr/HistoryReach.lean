import Nebularr.IncrementalRun
import Nebularr.RefreshExact

/-!
# What an incremental run reaches

The watermark is a promise: what the history holds up to it has been fetched.
A run keeps the promise when `history/since` answered it.  The page walk reads
at most `historyFallbackReach` records and then moves the watermark to the
newest of them, past whatever lies behind; the comment on the cap speaks of an
ancient watermark, and a busy one reaches it just as well.

`sonarr_reached_iff` and `radarr_reached_iff` say which histories a
run gets through.
-/

namespace Nebularr

section Reach

variable {T β γ : Type} [LinearOrder T]

/-- The run fetched an id and wrote what came back, as `covers` reads it off
the answer. -/
def IncrementalOutcome.Wrote (outcome : IncrementalOutcome T β) (covers : β → List Int)
    (id : Int) : Prop :=
  ∃ chunk ∈ outcome.settled, id ∈ chunk.1 ∧ id ∈ covers chunk.2

/-- The promise of the watermark `upto` of a run that began at `since`: every
event in between that names something the Arr still has led to its refetch. -/
def Reached (history : HistoryClient T) (hist : List HistoryEvent) (since upto : T)
    (key : HistoryEvent → Option Int) (has wrote : Int → Prop) : Prop :=
  ∀ event ∈ hist, ∀ date, history.dateOf event = some date →
    since ≤ date.instant → date.instant ≤ upto →
      ∀ id, key event = some id → has id → wrote id

/-- What lies behind the reach of the page walk and is not older than the
watermark names nothing that the reach does not name as well.  (Behind a reach
without any date only the watermark's own instant counts.) -/
def BacklogNamed (history : HistoryClient T) (hist : List HistoryEvent) (since : T)
    (key : HistoryEvent → Option Int) (has : Int → Prop) : Prop :=
  ∀ event ∈ hist.drop historyFallbackReach, ∀ date, history.dateOf event = some date →
    since ≤ date.instant →
      (date.instant = since ∨
        ∃ newer ∈ hist.take historyFallbackReach, (history.dateOf newer).isSome = true) →
      ∀ id, key event = some id → has id →
        ∃ newer ∈ hist.take historyFallbackReach, key newer = some id

variable {history : HistoryClient T} {hist : List HistoryEvent} {src : IncrementalSource β γ}
  {fault : FaultPlan} {stop : StopSignal} {watermark : Watermark T} {wh : Warehouse} {since : T}
  {covers : β → List Int} {has : Int → Prop}

/-- What a stored run wrote: the ids its events name. -/
theorem StoredRun.wrote_iff {outcome : IncrementalOutcome T β} {events : List HistoryEvent}
    {time : Option (Datetime T)} (h : StoredRun src history watermark wh outcome events time)
    (hsince : watermark.time = some since)
    (hfetch : ∀ ids answer, src.fetch ids = .ok answer → ∀ id ∈ ids, has id → id ∈ covers answer)
    (hpos : ∀ id, has id → id ≠ 0) {id : Int} (hid : has id) :
    outcome.Wrote covers id ↔ ∃ event ∈ events, src.key event = some id := by
  have hchunks : outcome.settled.map Prod.fst =
      slices src.chunkSize (changedIds src.key events) := by
    rcases h.complete with ⟨hnone, -⟩ | hchunks
    · rw [hsince] at hnone
      cases hnone
    · exact hchunks
  have hnamed : (∃ chunk ∈ outcome.settled, id ∈ chunk.1) ↔ id ∈ changedIds src.key events := by
    rw [← @mem_slices_iff _ src.chunkSize, ← hchunks]
    simp
  constructor
  · rintro ⟨chunk, hchunk, hmem, -⟩
    exact (mem_changedIds_iff.mp (hnamed.mp ⟨chunk, hchunk, hmem⟩)).2
  · intro hevent
    obtain ⟨chunk, hchunk, hmem⟩ :=
      hnamed.mpr (mem_changedIds_iff.mpr ⟨hpos id hid, hevent⟩)
    exact ⟨chunk, hchunk, hmem, hfetch chunk.1 chunk.2 (h.fetched chunk hchunk) id hmem hid⟩

/-- The time a stored run leaves in the row. -/
theorem StoredRun.time_eq {outcome : IncrementalOutcome T β} {events : List HistoryEvent}
    {time : Option (Datetime T)} (h : StoredRun src history watermark wh outcome events time)
    (hsince : watermark.time = some since) {upto : T} (hupto : outcome.watermark.time = some upto) :
    (time = none ∧ upto = since) ∨ ∃ top, time = some top ∧ upto = top.instant := by
  rw [h.written] at hupto
  cases time with
  | none =>
      simp only [Watermark.update, hsince, Option.map_none, Option.none_or, Option.some.injEq]
        at hupto
      exact Or.inl ⟨rfl, hupto.symm⟩
  | some top =>
      simp only [Watermark.update, Option.map_some, Option.some_or, Option.some.injEq] at hupto
      exact Or.inr ⟨top, rfl, hupto.symm⟩

/-- **What a run gets through.**  Served by `history/since`, every history; by
the page walk, exactly those whose backlog names nothing of its own. -/
theorem storedRun_reached_iff (hserves : history.Serves hist)
    (hsupports : history.supportsHistory = true) (hsince : watermark.time = some since)
    (hfetch : ∀ ids answer, src.fetch ids = .ok answer → ∀ id ∈ ids, has id → id ∈ covers answer)
    (hpos : ∀ id, has id → id ≠ 0)
    (hstored : (syncIncremental src fault stop history watermark wh).stored = true) {upto : T}
    (hupto : (syncIncremental src fault stop history watermark wh).watermark.time = some upto) :
    Reached history hist since upto src.key has
        ((syncIncremental src fault stop history watermark wh).Wrote covers) ↔
      (history.WalksPages since → BacklogNamed history hist since src.key has) := by
  rcases syncIncremental_spec src fault stop history watermark wh with ⟨hunstored, -⟩ |
    ⟨-, events, time, hrun⟩
  · rw [hstored] at hunstored
    cases hunstored
  have hwrote : ∀ id, has id →
      ((syncIncremental src fault stop history watermark wh).Wrote covers id ↔
        ∃ event ∈ events, src.key event = some id) :=
    fun id hid => hrun.wrote_iff hsince hfetch hpos hid
  have htime := hrun.time_eq hsince hupto
  obtain ⟨hdates, hsource⟩ := latestTime_eq_ok hrun.latest
  have hread := hrun.read
  rw [hsince] at hread
  rcases history.listHistorySince_eq_ok hsupports hread with ⟨hnowalk, hreply⟩ | ⟨hwalk, hpaged⟩
  · refine ⟨fun _ hwalk => absurd hwalk hnowalk, fun _ => ?_⟩
    intro event hevent date hdate hlow _ id hkey hid
    exact (hwrote id hid).mpr
      ⟨event, hserves.since since events hreply event hevent date hdate hlow, hkey⟩
  · obtain ⟨hwithin, hall⟩ := HistoryClient.mem_listHistoryPaged hserves hpaged
    constructor
    · intro hreached _ event hevent date hdate hlow hdated id hkey hid
      have hle : date.instant ≤ upto := by
        rcases hdated with hequal | ⟨newer, hnewer, hisdated⟩
        · rcases htime with ⟨-, rfl⟩ | ⟨top, htop, rfl⟩
          · exact hequal.le
          · obtain ⟨newest, hnewest, hdate'⟩ := hsource top htop
            rw [hequal]
            exact history.not_older_of_mem_listHistoryPaged hpaged newest hnewest top hdate'
        · obtain ⟨date', hdate'⟩ := Option.isSome_iff_exists.mp hisdated
          have hold := HistoryClient.older_behind_reach hserves hnewer hevent hdate' hdate
          have hseen := hall newer hnewer date' hdate' (hlow.trans hold)
          obtain ⟨top, htop, hbound⟩ := hdates newer hseen date' hdate'
          rcases htime with ⟨hnone, -⟩ | ⟨top', htop', rfl⟩
          · rw [hnone] at htop
            cases htop
          · obtain rfl := Option.some.inj (htop.symm.trans htop')
            exact hold.trans hbound
      have hin := hreached event (List.mem_of_mem_drop hevent) date hdate hlow hle id hkey hid
      obtain ⟨newer, hnewer, hkey'⟩ := (hwrote id hid).mp hin
      exact ⟨newer, hwithin newer hnewer, hkey'⟩
    · intro hbacklog event hevent date hdate hlow hhigh id hkey hid
      refine (hwrote id hid).mpr ?_
      rw [← List.take_append_drop historyFallbackReach hist] at hevent
      rcases List.mem_append.mp hevent with hreach | hbehind
      · exact ⟨event, hall event hreach date hdate hlow, hkey⟩
      · have hdated : date.instant = since ∨
            ∃ newer ∈ hist.take historyFallbackReach, (history.dateOf newer).isSome = true := by
          rcases htime with ⟨-, rfl⟩ | ⟨top, htop, -⟩
          · exact Or.inl (le_antisymm hhigh hlow)
          · obtain ⟨newest, hnewest, hdate'⟩ := hsource top htop
            exact Or.inr ⟨newest, hwithin newest hnewest, by simp [hdate']⟩
        obtain ⟨newer, hnewer, hkey'⟩ :=
          hbacklog hwalk event hbehind date hdate hlow hdated id hkey hid
        exact ⟨newer, HistoryClient.listHistoryPaged_whole hserves hpaged hbehind hdate hlow newer
          hnewer, hkey'⟩

end Reach

/-! ## The two sources -/

/-- Sonarr still has the series: asked for it, it answers with it. -/
def SonarrClient.Has (client : SonarrClient) (sid : Int) : Prop :=
  sid ≠ 0 ∧ ∃ row, client.getSeries sid = .ok (.row row) ∧ row.id = sid

/-- Radarr still has the movie. -/
def RadarrClient.Has (client : RadarrClient) (mid : Int) : Prop :=
  mid ≠ 0 ∧ ∃ row, client.getMovie mid = .ok (.row row) ∧ row.id = mid

/-- The series a chunk was answered with, and writes. -/
def SeriesRefetch.presentIds (chunk : SeriesRefetch) : List Int := chunkSeriesIds chunk.present

/-- The movies a chunk was answered with, and writes. -/
def MovieRefetch.presentIds (chunk : MovieRefetch) : List Int :=
  chunk.present.map MoviePayload.id

/-- The reply to a request of a gathered batch. -/
private theorem exists_reply {α β : Type} {f : α → Except SyncError β} {ids : List α}
    {replies : List β} (h : ids.mapM f = .ok replies) {id : α} (hid : id ∈ ids) :
    ∃ reply, (id, reply) ∈ ids.zip replies ∧ f id = .ok reply := by
  obtain ⟨hlength, hzip⟩ := List.forall₂_iff_zip.mp (forall₂_of_mapM_eq_ok h)
  rw [← List.map_fst_zip hlength.le] at hid
  obtain ⟨⟨id', reply⟩, hmem, rfl⟩ := List.mem_map.mp hid
  exact ⟨reply, hmem, hzip hmem⟩

/-- A chunk writes each series asked for that Sonarr still has. -/
theorem mem_presentIds_of_has {client : SonarrClient} {ids : List Int} {chunk : SeriesRefetch}
    (h : fetchSeriesChunk client ids = .ok chunk) {sid : Int} (hsid : sid ∈ ids)
    (hhas : client.Has sid) : sid ∈ chunk.presentIds := by
  obtain ⟨hne, row, hrow, rfl⟩ := hhas
  unfold fetchSeriesChunk at h
  cases hreplies : ids.mapM client.getSeries with
  | error e => simp [hreplies, bind, Except.bind] at h
  | ok replies =>
      obtain ⟨reply, hmem, hreply⟩ := exists_reply hreplies hsid
      obtain rfl := Except.ok.inj (hreply.symm.trans hrow)
      have hpresent : (row.id, row) ∈ presentSeries ids replies := by
        refine List.mem_filterMap.mpr ⟨(row.id, .row row), hmem, ?_⟩
        simp [hne]
      cases hlists : (presentSeries ids replies).mapM fun answer =>
        client.listEpisodes answer.1 with
      | error e => simp [hreplies, hlists, bind, Except.bind] at h
      | ok lists =>
          simp only [hreplies, hlists, bind, Except.bind, pure, Except.pure, Except.ok.injEq] at h
          subst h
          have hlength := (forall₂_of_mapM_eq_ok hlists).length_eq
          have hrows : (((presentSeries ids replies).map Prod.snd).zip lists).map Prod.fst =
              (presentSeries ids replies).map Prod.snd := by
            apply List.map_fst_zip
            simp [hlength]
          have hids : chunkSeriesIds (((presentSeries ids replies).map Prod.snd).zip lists) =
              ((presentSeries ids replies).map Prod.snd).map SeriesPayload.id := by
            conv_rhs => rw [← hrows]
            rw [chunkSeriesIds, List.map_map]
            rfl
          rw [SeriesRefetch.presentIds, hids]
          exact List.mem_map_of_mem (List.mem_map_of_mem hpresent)

/-- A chunk writes each movie asked for that Radarr still has. -/
theorem mem_presentMovieIds_of_has {client : RadarrClient} {ids : List Int} {chunk : MovieRefetch}
    (h : fetchMovieChunk client ids = .ok chunk) {mid : Int} (hmid : mid ∈ ids)
    (hhas : client.Has mid) : mid ∈ chunk.presentIds := by
  obtain ⟨hne, row, hrow, rfl⟩ := hhas
  unfold fetchMovieChunk at h
  cases hreplies : ids.mapM client.getMovie with
  | error e => simp [hreplies, bind, Except.bind] at h
  | ok replies =>
      obtain ⟨reply, hmem, hreply⟩ := exists_reply hreplies hmid
      obtain rfl := Except.ok.inj (hreply.symm.trans hrow)
      simp only [hreplies, bind, Except.bind, pure, Except.pure, Except.ok.injEq] at h
      subst h
      refine List.mem_map_of_mem (List.mem_filterMap.mpr ⟨.row row, (List.of_mem_zip hmem).2, ?_⟩)
      simp [hne]

section Sources

variable {T : Type} [LinearOrder T] {history : HistoryClient T} {hist : List HistoryEvent}
  {watermark : Watermark T} {since upto : T} {fault : FaultPlan} {stop : StopSignal}
  {inst : String} {tag : WriteTag} {wh : Warehouse}

/-- What a Sonarr run gets through. -/
theorem sonarr_reached_iff {client : SonarrClient} (hserves : history.Serves hist)
    (hsupports : history.supportsHistory = true) (hsince : watermark.time = some since) :
    let outcome := syncIncremental (sonarrSource client inst tag) fault stop history watermark wh
    outcome.stored = true → outcome.watermark.time = some upto →
      (Reached history hist since upto HistoryEvent.seriesId client.Has
          (outcome.Wrote SeriesRefetch.presentIds) ↔
        (history.WalksPages since →
          BacklogNamed history hist since HistoryEvent.seriesId client.Has)) := by
  intro outcome hstored hupto
  exact storedRun_reached_iff hserves hsupports hsince
    (fun ids chunk hfetch sid hsid hhas => mem_presentIds_of_has hfetch hsid hhas)
    (fun sid hhas => hhas.1) hstored hupto

/-- What a Radarr run gets through. -/
theorem radarr_reached_iff {client : RadarrClient} (hserves : history.Serves hist)
    (hsupports : history.supportsHistory = true) (hsince : watermark.time = some since) :
    let outcome := syncIncremental (radarrSource client inst tag) fault stop history watermark wh
    outcome.stored = true → outcome.watermark.time = some upto →
      (Reached history hist since upto HistoryEvent.movieId client.Has
          (outcome.Wrote MovieRefetch.presentIds) ↔
        (history.WalksPages since →
          BacklogNamed history hist since HistoryEvent.movieId client.Has)) := by
  intro outcome hstored hupto
  exact storedRun_reached_iff hserves hsupports hsince
    (fun ids chunk hfetch mid hmid hhas => mem_presentMovieIds_of_has hfetch hmid hhas)
    (fun mid hhas => hhas.1) hstored hupto

end Sources

/-- **The exact reach of an incremental run.**  A run that wrote the watermark
row has refetched everything its history names up to the new watermark: always
when `history/since` answered, and on a page walk exactly when the records
behind the first 25 pages name nothing that these pages do not. -/
theorem run_reaches_history_iff {T : Type} [LinearOrder T] {history : HistoryClient T}
    {hist : List HistoryEvent} {watermark : Watermark T} {since upto : T}
    (hserves : history.Serves hist) (hsupports : history.supportsHistory = true)
    (hsince : watermark.time = some since) (fault : FaultPlan) (stop : StopSignal)
    (inst : String) (tag : WriteTag) (wh : Warehouse) :
    (∀ client : SonarrClient,
      let outcome := syncIncremental (sonarrSource client inst tag) fault stop history watermark wh
      outcome.stored = true → outcome.watermark.time = some upto →
        (Reached history hist since upto HistoryEvent.seriesId client.Has
            (outcome.Wrote SeriesRefetch.presentIds) ↔
          (history.WalksPages since →
            BacklogNamed history hist since HistoryEvent.seriesId client.Has))) ∧
      ∀ client : RadarrClient,
        let outcome :=
          syncIncremental (radarrSource client inst tag) fault stop history watermark wh
        outcome.stored = true → outcome.watermark.time = some upto →
          (Reached history hist since upto HistoryEvent.movieId client.Has
              (outcome.Wrote MovieRefetch.presentIds) ↔
            (history.WalksPages since →
              BacklogNamed history hist since HistoryEvent.movieId client.Has)) := by
  exact ⟨fun client => sonarr_reached_iff hserves hsupports hsince,
    fun client => radarr_reached_iff hserves hsupports hsince⟩

/-! ### A backlog larger than the walk -/

/-- Two days in April, in the form the Arrs write them. -/
def aprilDates (text : String) : Option (Datetime ℕ) :=
  if text = "2026-04-01T00:00:00+00:00" then some ⟨1, true⟩
  else if text = "2026-04-02T00:00:00+00:00" then some ⟨2, true⟩
  else none

/-- The dates of the example have an offset. -/
theorem aprilDates_hasOffset (text : String) (date : Datetime ℕ) (h : aprilDates text = some date) :
    date.hasOffset = true := by
  unfold aprilDates at h
  split at h
  · obtain rfl := Option.some.inj h
    rfl
  · split at h
    · obtain rfl := Option.some.inj h
      rfl
    · cases h

/-- An import of series 1 on April 1. -/
def importEvent : HistoryEvent :=
  { id := some 1, date := some "2026-04-01T00:00:00Z", seriesId := some 1 }

/-- One of many events on April 2 that name no series. -/
def busyEvent : HistoryEvent := { id := some 2, date := some "2026-04-02T00:00:00Z" }

/-- The import, behind as many events as the walk reaches. -/
def backlogBehind (busy : HistoryEvent) : List HistoryEvent :=
  List.replicate historyFallbackReach busy ++ [importEvent]

def backlog : List HistoryEvent := backlogBehind busyEvent

/-- The import's time. -/
theorem parsedDate_importEvent : importEvent.parsedDate aprilDates = some ⟨1, true⟩ := by decide

/-- The later events' time. -/
theorem parsedDate_busyEvent : busyEvent.parsedDate aprilDates = some ⟨2, true⟩ := by decide

section Backlog

variable {busy : HistoryEvent} (hbusy : busy.parsedDate aprilDates = some ⟨2, true⟩)

/-- The last pages are full of later events. -/
theorem take_backlogBehind : (backlogBehind busy).take historyFallbackReach =
    List.replicate historyFallbackReach busy := by
  rw [backlogBehind]
  exact List.take_left' List.length_replicate

/-- Behind them is the import. -/
theorem drop_backlogBehind : (backlogBehind busy).drop historyFallbackReach = [importEvent] := by
  rw [backlogBehind]
  exact List.drop_left' List.length_replicate

include hbusy

/-- The client serves this history. -/
theorem backlogBehind_serves :
    (servingHistory aprilDates (backlogBehind busy) false).Serves (backlogBehind busy) := by
  apply servingHistory_serves
  rw [backlogBehind, List.pairwise_append]
  refine ⟨?_, List.pairwise_singleton _ _, ?_⟩
  · rw [List.pairwise_replicate]
    right
    intro date date' hdate hdate'
    obtain rfl := Option.some.inj (hdate.symm.trans hdate')
    exact le_refl _
  · intro event hevent older holder date date' hdate hdate'
    obtain rfl := List.eq_of_mem_replicate hevent
    obtain rfl := List.mem_singleton.mp holder
    obtain rfl := Option.some.inj (hbusy.symm.trans hdate)
    obtain rfl := Option.some.inj (parsedDate_importEvent.symm.trans hdate')
    decide

/-- The walk reads the busy day, and nothing else. -/
theorem backlogBehind_read {events : List HistoryEvent}
    (h : (servingHistory aprilDates (backlogBehind busy) false).listHistoryPaged (some 1) =
      .ok events) : busy ∈ events ∧ ∀ event ∈ events, event = busy := by
  obtain ⟨hwithin, hall⟩ := HistoryClient.mem_listHistoryPaged (backlogBehind_serves hbusy) h
  rw [take_backlogBehind] at hwithin hall
  refine ⟨hall busy ?_ ⟨2, true⟩ hbusy (by decide), ?_⟩
  · exact List.mem_replicate.mpr ⟨by decide, rfl⟩
  · exact fun event hevent => List.eq_of_mem_replicate (hwithin event hevent)

/-- A run over the backlog runs through, and moves the watermark to April 2. -/
theorem backlogBehind_stored (lib : SonarrLibrary) (wh : Warehouse) :
    let outcome :=
  syncIncremental (sonarrSource lib.client "default" ⟨1, "incremental", String.toLower⟩)
      (fun _ => none) .never (servingHistory aprilDates (backlogBehind busy) false)
        ⟨some 1, none⟩ wh
    outcome.stored = true ∧ outcome.watermark.time = some 2 := by
  intro outcome
  obtain ⟨events, hpaged⟩ := servingHistory_isOk aprilDates (backlogBehind busy) false
    aprilDates_hasOffset (some 1)
  have hread : ((servingHistory aprilDates (backlogBehind busy) false).listHistorySince
      (some 1)).1 = .ok events := by
    simp only [(servingHistory_walks aprilDates (backlogBehind busy) 1).2, hpaged]
  obtain ⟨time, hlatest⟩ : ∃ time, latestTime
      (servingHistory aprilDates (backlogBehind busy) false) events = .ok time :=
    latestTime_isOk aprilDates_hasOffset events
  have hfetch : ∀ ids, ∃ chunk,
      (sonarrSource lib.client "default" ⟨1, "incremental", String.toLower⟩).fetch ids =
        .ok chunk :=
    fun ids => ⟨_, fetchSeriesChunk_of_answers lib.client_answers ids⟩
  obtain ⟨hstored, hwritten⟩ : outcome.stored = true ∧ outcome.watermark =
      Watermark.update ⟨some 1, none⟩ (time.map Datetime.instant) (latestId events) :=
    syncIncremental_stored (fun _ => rfl) (fun _ => rfl) hfetch hread hlatest
  refine ⟨hstored, ?_⟩
  obtain ⟨hin, honly⟩ := backlogBehind_read hbusy hpaged
  obtain ⟨hdates, hsource⟩ := latestTime_eq_ok hlatest
  obtain ⟨top, rfl, -⟩ := hdates busy hin ⟨2, true⟩ hbusy
  obtain ⟨event, hevent, hdate⟩ := hsource top rfl
  rw [honly event hevent] at hdate
  obtain rfl := Option.some.inj (hbusy.symm.trans hdate)
  rw [hwritten]
  rfl

end Backlog

/-- The run over the backlog, of a Sonarr that has series 1. -/
def backlogRun : IncrementalOutcome ℕ SeriesRefetch :=
  syncIncremental (sonarrSource emptiedLibrary.client "default" ⟨1, "incremental", String.toLower⟩)
    (fun _ => none) .never (servingHistory aprilDates backlog false) ⟨some 1, none⟩ .empty

/-- The run stores its watermark past the import. -/
theorem backlogRun_stored : backlogRun.stored = true ∧ backlogRun.watermark.time = some 2 := by
  unfold backlogRun backlog
  exact backlogBehind_stored parsedDate_busyEvent emptiedLibrary .empty

/-- **A backlog is skipped.**  The import of April 1 lies within the watermarks
of the run, Sonarr still has its series, and the run did not fetch it. -/
theorem backlog_is_skipped :
    (servingHistory aprilDates backlog false).Serves backlog ∧
      backlogRun.stored = true ∧ backlogRun.watermark.time = some 2 ∧
      ¬ Reached (servingHistory aprilDates backlog false) backlog 1 2 HistoryEvent.seriesId
        emptiedLibrary.client.Has (backlogRun.Wrote SeriesRefetch.presentIds) := by
  have hserves : (servingHistory aprilDates backlog false).Serves backlog :=
    backlogBehind_serves parsedDate_busyEvent
  refine ⟨hserves, backlogRun_stored.1, backlogRun_stored.2, fun hreached => ?_⟩
  have hhas : emptiedLibrary.client.Has 1 := ⟨by decide, { id := 1 }, by decide, rfl⟩
  have hsupports : (servingHistory aprilDates backlog false).supportsHistory = true := by
    rw [servingHistory]
  obtain ⟨hstored, hupto⟩ := backlogRun_stored
  unfold backlogRun at hstored hupto hreached
  have hbacklog := (sonarr_reached_iff hserves hsupports rfl hstored hupto).mp hreached
    (servingHistory_walks aprilDates backlog 1).1
  have hbehind : importEvent ∈ backlog.drop historyFallbackReach := by
    rw [backlog, drop_backlogBehind]
    exact List.mem_singleton_self _
  obtain ⟨newer, hnewer, hkey⟩ := hbacklog importEvent hbehind ⟨1, true⟩ parsedDate_importEvent
    (le_refl 1) (Or.inl rfl) 1 rfl hhas
  rw [backlog, take_backlogBehind] at hnewer
  obtain rfl := List.eq_of_mem_replicate hnewer
  cases hkey

/-- One of many later events of series 1. -/
def followUp : HistoryEvent := { busyEvent with seriesId := some 1 }

/-- The run over a backlog that the walk names as well, of the Sonarr that has
grown. -/
def followedRun : IncrementalOutcome ℕ SeriesRefetch :=
  syncIncremental (sonarrSource grownLibrary.client "default" ⟨1, "incremental", String.toLower⟩)
    (fun _ => none)
    .never (servingHistory aprilDates (backlogBehind followUp) false)
      ⟨some 1, none⟩ laggingWarehouse

/-- Where a later event names the series too, the import is reached. -/
theorem followed_backlog_is_reached :
    Reached (servingHistory aprilDates (backlogBehind followUp) false) (backlogBehind followUp) 1 2
      HistoryEvent.seriesId grownLibrary.client.Has
        (followedRun.Wrote SeriesRefetch.presentIds) := by
  have hdate : followUp.parsedDate aprilDates = some ⟨2, true⟩ := by decide
  obtain ⟨hstored, hupto⟩ := backlogBehind_stored hdate grownLibrary laggingWarehouse
  refine ((run_reaches_history_iff (backlogBehind_serves hdate) rfl rfl (fun _ => none) .never
    "default" ⟨1, "incremental", String.toLower⟩ laggingWarehouse).1 grownLibrary.client hstored
      hupto).mpr ?_
  intro _ event hevent _ _ _ _ id hkey _
  rw [drop_backlogBehind] at hevent
  obtain rfl := List.mem_singleton.mp hevent
  obtain rfl := Option.some.inj hkey
  rw [take_backlogBehind]
  exact ⟨followUp, List.mem_replicate.mpr ⟨by decide, rfl⟩, rfl⟩

end Nebularr
