import Nebularr.GroupedRows
import Nebularr.LibraryListing

/-!
# The show list and the pages below it

`_query_shows` counts the episodes and seasons of a show in subselects of its
own, `_query_show_seasons` lists the seasons, `_query_show_episodes` pages
through the episodes of a show or of one season, `_query_all_episodes` through
those of all shows.  They are four readings of two tables, and they agree.
-/

/-- One condition after the other. -/
theorem KeyedTable.selectWhere_and {κ ρ : Type} (p q : κ → ρ → Bool) (t : KeyedTable κ ρ) :
    (t.selectWhere fun k r => p k r && q k r) = (t.selectWhere p).filter fun e => q e.1 e.2 := by
  rw [KeyedTable.selectWhere, KeyedTable.selectWhere, List.filter_filter]
  congr 1
  funext e
  exact Bool.and_comm _ _

namespace Nebularr

/-! ## The queries -/

/-- A row of `_query_shows`. -/
structure ShowRow where
  key : RowKey
  series : SeriesCols
  episodeCount : ℕ
  seasonCount : ℕ
  lastSeenAt : Int
deriving DecidableEq, Repr

inductive ShowSort
  | title
  | instanceName
  | episodeCount
  | seasonCount
  | lastSeenAt
deriving DecidableEq, Repr

/-- The `sort_map` of `_query_shows`. -/
def showSortMap : List (String × ShowSort) :=
  [("title", .title), ("instance_name", .instanceName), ("episode_count", .episodeCount),
    ("season_count", .seasonCount), ("last_seen_at", .lastSeenAt)]

def ShowSort.expr (pg : TextRules) : ShowSort → ShowRow → ShowRow → Ordering
  | title => byColumn pg.collate fun row => row.series.title
  | instanceName => byColumn pg.collate fun row => row.key.instanceName
  | episodeCount => byColumn compare fun row => row.episodeCount
  | seasonCount => byColumn compare fun row => row.seasonCount
  | lastSeenAt => byColumn compare fun row => row.lastSeenAt

instance (pg : TextRules) (sort : ShowSort) : Std.TransCmp (sort.expr pg) := by
  cases sort <;> unfold ShowSort.expr <;> infer_instance

/-- What a request for the episodes of a show names besides its page. -/
structure ShowEpisodesRequest where
  seriesId : Int
  instanceName : String
  seasonNumber : Option Int := none
  sortBy : String := "season_number"
  sortDir : String := "asc"
deriving DecidableEq, Repr

inductive ShowEpisodeSort
  | seasonNumber
  | episodeNumber
  | airDate
  | episodeTitle
  | sizeBytes
deriving DecidableEq, Repr

/-- The `sort_map` of `_query_show_episodes`. -/
def showEpisodeSortMap : List (String × ShowEpisodeSort) :=
  [("season_number", .seasonNumber), ("episode_number", .episodeNumber), ("air_date", .airDate),
    ("episode_title", .episodeTitle), ("size_bytes", .sizeBytes)]

def ShowEpisodeSort.expr (pg : TextRules) : ShowEpisodeSort → EpisodeRow → EpisodeRow → Ordering
  | seasonNumber => byColumn compare fun row => row.episode.seasonNumber
  | episodeNumber => byColumn compare fun row => row.episode.episodeNumber
  | airDate => byColumn (nullsLast compare) fun row => row.episode.airDate
  | episodeTitle => byColumn pg.collate fun row => row.episode.title
  | sizeBytes => byColumn (nullsLast compare) fun row => row.file.bind fun file => file.2.sizeBytes

instance (pg : TextRules) (sort : ShowEpisodeSort) : Std.TransCmp (sort.expr pg) := by
  cases sort <;> unfold ShowEpisodeSort.expr <;> infer_instance

section Queries

variable (pg : TextRules) (w : Warehouse) (lastSeenAt : RowKey → Int)

/-- The condition of the subselects and of `_query_show_seasons`. -/
def episodeOfShow (seriesId : Int) (inst : String) (key : RowKey) (e : SoftRow EpisodeCols) :
    Bool :=
  e.cols.seriesSourceId = seriesId && key.instanceName = inst && !e.deleted

/-- The season numbers of the live episodes of a show. -/
def seasonNumbers (seriesId : Int) (inst : String) : List Int :=
  (w.episode.selectWhere (episodeOfShow seriesId inst)).map fun e => e.2.cols.seasonNumber

/-- The `where` clause of `_query_shows`. -/
def showListed (search : String) (s : SoftRow SeriesCols) : Bool :=
  !s.deleted && searchListed pg search [s.cols.title]

/-- The select list of `_query_shows`, with its subselects. -/
def showRow (s : RowKey × SoftRow SeriesCols) : ShowRow where
  key := s.1
  series := s.2.cols
  episodeCount := w.episode.countWhere (episodeOfShow s.1.sourceId s.1.instanceName)
  seasonCount := (seasonNumbers w s.1.sourceId s.1.instanceName).dedup.length
  lastSeenAt := lastSeenAt s.1

/-- The shows that match. -/
def listedShows (request : ListingRequest) : List (RowKey × SoftRow SeriesCols) :=
  w.series.selectWhere fun _ s => showListed pg request.search s

/-- The rows of `_query_shows` before its order and page. -/
def showRows (request : ListingRequest) : List ShowRow :=
  (listedShows pg w request).map (showRow w lastSeenAt)

/-- The `order by` of `_query_shows`. -/
def showOrder (request : ListingRequest) : ShowRow → ShowRow → Ordering :=
  let sort := normalizeSort request.sortBy request.sortDir showSortMap .title
  listingOrder pg (sort.1.expr pg) sort.2 ShowRow.key

/-- `_query_shows`, given the order that the database chose for its rows.  A
request names no instance. -/
def queryShows (request : ListingRequest) (answer : List ShowRow) (limit offset : Int) :
    PagedResponse ShowRow :=
  let total := w.series.countWhere fun _ s => showListed pg request.search s
  let boundedLimit := clampLimit limit 200 2000
  let boundedOffset := clampOffset offset
  pagedResponse (slice answer boundedLimit boundedOffset) total boundedLimit boundedOffset

/-- `_query_show_seasons`. -/
def queryShowSeasons (seriesId : Int) (inst : String) : List Int :=
  (seasonNumbers w seriesId inst).dedup.mergeSort

/-- The live series of an episode that is listed under its show. -/
def showEpisodeListed (request : ShowEpisodesRequest) (key : RowKey) (e : SoftRow EpisodeCols) :
    Option SeriesCols :=
  (joinedSeries w key e.cols).filter fun _ =>
    episodeOfShow request.seriesId request.instanceName key e &&
      request.seasonNumber.all (e.cols.seasonNumber = ·)

/-- The rows of one episode under its show. -/
def rowsOfShowEpisode (request : ShowEpisodesRequest) (e : RowKey × SoftRow EpisodeCols) :
    List EpisodeRow :=
  (showEpisodeListed w request e.1 e.2).toList.flatMap fun s =>
    (episodeFileRows w e.1 e.2.cols).map fun file => ⟨e.1, e.2.cols, s, file⟩

/-- The episodes of the show, or of one season. -/
def listedShowEpisodes (request : ShowEpisodesRequest) : List (RowKey × SoftRow EpisodeCols) :=
  w.episode.selectWhere fun key e => (showEpisodeListed w request key e).isSome

/-- The rows of `_query_show_episodes` before its order and page. -/
def showEpisodeRows (request : ShowEpisodesRequest) : List EpisodeRow :=
  (listedShowEpisodes w request).flatMap (rowsOfShowEpisode w request)

/-- The `order by` of `_query_show_episodes`. -/
def showEpisodeOrder (request : ShowEpisodesRequest) : EpisodeRow → EpisodeRow → Ordering :=
  let sort := normalizeSort request.sortBy request.sortDir showEpisodeSortMap .seasonNumber
  listingOrder pg (sort.1.expr pg) sort.2 EpisodeRow.key

/-- `_query_show_episodes`, given the order that the database chose for its rows. -/
def queryShowEpisodes (request : ShowEpisodesRequest) (answer : List EpisodeRow)
    (limit offset : Int) : PagedResponse EpisodeRow :=
  let total := w.episode.countWhere fun key e => (showEpisodeListed w request key e).isSome
  let boundedLimit := clampLimit limit 500 5000
  let boundedOffset := clampOffset offset
  pagedResponse (slice answer boundedLimit boundedOffset) total boundedLimit boundedOffset

end Queries

/-! ## Shows and their episodes -/

section Shows

variable {pg : TextRules} {w : Warehouse} {lastSeenAt : RowKey → Int} {request : ListingRequest}

theorem mem_listedShows {s : RowKey × SoftRow SeriesCols} :
    s ∈ listedShows pg w request ↔
      w.series.row s.1 = some s.2 ∧ showListed pg request.search s.2 = true :=
  KeyedTable.mem_selectWhere_iff

theorem keys_showRows :
    (showRows pg w lastSeenAt request).map ShowRow.key =
      (listedShows pg w request).map Prod.fst := by
  rw [showRows, List.map_map]
  rfl

theorem nodup_keys_showRows : ((showRows pg w lastSeenAt request).map ShowRow.key).Nodup := by
  rw [keys_showRows]
  exact KeyedTable.nodup_selectWhere _ _

/-- A listed show is live. -/
theorem exists_live_of_mem_showRows {row : ShowRow} (h : row ∈ showRows pg w lastSeenAt request) :
    ∃ s, w.series.row row.key = some s ∧ s.deleted = false ∧
      row = showRow w lastSeenAt (row.key, s) := by
  obtain ⟨⟨key, s⟩, hs, rfl⟩ := List.mem_map.mp h
  obtain ⟨hrow, hlisted⟩ := mem_listedShows.mp hs
  refine ⟨s, hrow, ?_, rfl⟩
  have hlive := (Bool.and_eq_true_iff.mp hlisted).1
  simpa using hlive

/-- Under a live show its live episodes are listed. -/
theorem isSome_showEpisodeListed {seriesId : Int} {inst sortBy sortDir : String}
    {s : SoftRow SeriesCols}
    (hrow : w.series.row ⟨seriesId, inst⟩ = some s) (hlive : s.deleted = false)
    (season : Option Int)
    (key : RowKey) (e : SoftRow EpisodeCols) :
    (showEpisodeListed w ⟨seriesId, inst, season, sortBy, sortDir⟩ key e).isSome =
      (episodeOfShow seriesId inst key e && season.all (e.cols.seasonNumber = ·)) := by
  unfold showEpisodeListed
  by_cases hshow : episodeOfShow seriesId inst key e = true
  · obtain ⟨⟨hseries, hinst⟩, -⟩ : (e.cols.seriesSourceId = seriesId ∧ key.instanceName = inst) ∧
        e.deleted = false := by
      simpa [episodeOfShow] using hshow
    have hjoined : joinedSeries w key e.cols = some s.cols := by
      rw [joinedSeries, hseries, hinst, hrow]
      simp [hlive]
    rw [hjoined, hshow, Bool.true_and]
    cases season.all (e.cols.seasonNumber = ·) <;> rfl
  · rw [Bool.not_eq_true] at hshow
    rw [hshow]
    cases joinedSeries w key e.cols <;> rfl

/-- The episodes of a season are a group of those of the show. -/
theorem listedShowEpisodes_season {seriesId : Int} {inst : String} {s : SoftRow SeriesCols}
    (hrow : w.series.row ⟨seriesId, inst⟩ = some s) (hlive : s.deleted = false) (season : Int)
    (sortBy sortDir : String) :
    listedShowEpisodes w ⟨seriesId, inst, some season, sortBy, sortDir⟩ =
      groupOf (fun e => e.2.cols.seasonNumber) (w.episode.selectWhere (episodeOfShow seriesId inst))
        season := by
  unfold listedShowEpisodes
  simp only [isSome_showEpisodeListed hrow hlive, Option.all_some]
  rw [KeyedTable.selectWhere_and]
  rfl

/-- The rows below a show's row say what the row does. -/
structure DrillsDown (pg : TextRules) (w : Warehouse) (row : ShowRow) : Prop where
  seasons : (queryShowSeasons w row.key.sourceId row.key.instanceName).length = row.seasonCount
  episodes : ∀ sortBy sortDir answer limit offset,
    (queryShowEpisodes w
      ⟨row.key.sourceId, row.key.instanceName, none, sortBy, sortDir⟩ answer limit
      offset).total = row.episodeCount
  bySeason : ∀ sortBy sortDir answer limit offset,
    ((queryShowSeasons w row.key.sourceId row.key.instanceName).map fun season =>
      (queryShowEpisodes w
        ⟨row.key.sourceId, row.key.instanceName, some season, sortBy, sortDir⟩ answer
        limit offset).total).sum = row.episodeCount

theorem nodup_queryShowSeasons (seriesId : Int) (inst : String) :
    (queryShowSeasons w seriesId inst).Nodup :=
  (List.mergeSort_perm _ _).nodup_iff.mpr (List.nodup_dedup _)

/-- Every episode is in a listed season. -/
theorem mem_queryShowSeasons {seriesId season : Int} {inst : String} :
    season ∈ queryShowSeasons w seriesId inst ↔ season ∈ seasonNumbers w seriesId inst := by
  rw [queryShowSeasons, (List.mergeSort_perm _ _).mem_iff, List.mem_dedup]

theorem drillsDown_of_mem_showRows {row : ShowRow} (h : row ∈ showRows pg w lastSeenAt request) :
    DrillsDown pg w row := by
  obtain ⟨s, hrow, hlive, hshow⟩ := exists_live_of_mem_showRows h
  have hcount : row.episodeCount =
      (w.episode.selectWhere (episodeOfShow row.key.sourceId row.key.instanceName)).length := by
    rw [hshow]
    rfl
  constructor
  · rw [queryShowSeasons, (List.mergeSort_perm _ _).length_eq, hshow]
    rfl
  · intro sortBy sortDir answer limit offset
    have hall : (fun key e => (showEpisodeListed w
        ⟨row.key.sourceId, row.key.instanceName, none, sortBy, sortDir⟩ key e).isSome) =
          episodeOfShow row.key.sourceId row.key.instanceName := by
      funext key e
      rw [isSome_showEpisodeListed hrow hlive, Option.all_none, Bool.and_true]
    simp only [queryShowEpisodes, pagedResponse, hall]
    rw [hcount]
    rfl
  · intro sortBy sortDir answer limit offset
    rw [hcount]
    have hgroup : ∀ season, w.episode.countWhere (fun key e => (showEpisodeListed w
        ⟨row.key.sourceId, row.key.instanceName, some season, sortBy, sortDir⟩ key e).isSome) =
          (groupOf (fun e => e.2.cols.seasonNumber)
            (w.episode.selectWhere (episodeOfShow row.key.sourceId row.key.instanceName))
              season).length :=
      fun season =>
        congrArg List.length (listedShowEpisodes_season hrow hlive season sortBy sortDir)
    simp only [queryShowEpisodes, pagedResponse, hgroup]
    refine sum_length_groupOf (nodup_queryShowSeasons _ _) fun e he => ?_
    rw [mem_queryShowSeasons]
    exact List.mem_map_of_mem he

/-- The series an episode belongs to. -/
def showOf (e : RowKey × SoftRow EpisodeCols) : RowKey :=
  ⟨e.2.cols.seriesSourceId, e.1.instanceName⟩

theorem searchListed_of_empty {search : String} (h : strip search = "") (titles : List String) :
    searchListed pg search titles = true := by
  simp [searchListed, searchParams, h]

theorem instanceListed_of_empty {wanted : String} (h : strip wanted = "") (inst : String) :
    instanceListed (strip wanted) inst = true := by
  simp [instanceListed, h]

/-- The live episodes of live shows. -/
theorem isSome_listedSeries_of_empty (hsearch : strip request.search = "")
    (hinst : strip request.instanceName = "") (key : RowKey) (e : SoftRow EpisodeCols) :
    (listedSeries pg w request key e).isSome =
      (!e.deleted && w.series.isLive ⟨e.cols.seriesSourceId, key.instanceName⟩) := by
  unfold listedSeries joinedSeries KeyedTable.isLive
  simp only [searchListed_of_empty hsearch, instanceListed_of_empty hinst, Bool.and_true]
  cases w.series.row ⟨e.cols.seriesSourceId, key.instanceName⟩ with
  | none => simp
  | some s => cases hs : s.deleted <;> cases he : e.deleted <;> simp [Option.filter, hs]

/-- The episodes of a live show are a group of the episode listing. -/
theorem selectWhere_episodeOfShow {listing : ListingRequest} (hsearch : strip listing.search = "")
    (hinst : strip listing.instanceName = "") {shown : RowKey}
    (hlive : w.series.isLive shown = true) :
    w.episode.selectWhere (episodeOfShow shown.sourceId shown.instanceName) =
      groupOf showOf (listedEpisodes pg w listing) shown := by
  rw [groupOf, listedEpisodes]
  rw [← KeyedTable.selectWhere_and (fun key e => (listedSeries pg w listing key e).isSome)
    fun key e => showOf (key, e) = shown]
  congr 1
  funext key e
  rw [isSome_listedSeries_of_empty hsearch hinst, Bool.eq_iff_iff]
  simp only [episodeOfShow, Bool.and_eq_true, decide_eq_true_eq]
  constructor
  · intro h
    obtain ⟨⟨hseries, hname⟩, hnot⟩ := h
    rw [hseries, hname, showOf, hseries, hname]
    exact ⟨⟨hnot, hlive⟩, rfl⟩
  · intro h
    obtain ⟨⟨hnot, -⟩, hshow⟩ := h
    rw [← hshow]
    exact ⟨⟨rfl, rfl⟩, hnot⟩

/-- **The episode counts of all shows add up to the episode listing.** -/
theorem sum_episodeCount {listing : ListingRequest} (hshows : strip request.search = "")
    (hsearch : strip listing.search = "") (hinst : strip listing.instanceName = "") :
    ((showRows pg w lastSeenAt request).map ShowRow.episodeCount).sum =
      (listedEpisodes pg w listing).length := by
  have hgroup : ∀ key ∈ (listedShows pg w request).map Prod.fst,
      w.episode.countWhere (episodeOfShow key.sourceId key.instanceName) =
        (groupOf showOf (listedEpisodes pg w listing) key).length := by
    intro key hkey
    obtain ⟨s, hs, rfl⟩ := List.mem_map.mp hkey
    obtain ⟨hrow, hlisted⟩ := mem_listedShows.mp hs
    have hlive : w.series.isLive s.1 = true := by
      have hnot := (Bool.and_eq_true_iff.mp hlisted).1
      simpa [KeyedTable.isLive, hrow] using hnot
    rw [KeyedTable.countWhere, selectWhere_episodeOfShow hsearch hinst hlive]
  have hsame : (showRows pg w lastSeenAt request).map ShowRow.episodeCount =
      ((listedShows pg w request).map Prod.fst).map fun key =>
        (groupOf showOf (listedEpisodes pg w listing) key).length := by
    rw [← List.map_congr_left hgroup, showRows, List.map_map, List.map_map]
    rfl
  rw [hsame]
  refine sum_length_groupOf (KeyedTable.nodup_selectWhere _ _) fun e he => ?_
  obtain ⟨-, hlisted⟩ := KeyedTable.mem_selectWhere_iff.mp he
  rw [isSome_listedSeries_of_empty hsearch hinst, Bool.and_eq_true] at hlisted
  obtain ⟨s, hrow, hlive⟩ : ∃ s, w.series.row (showOf e) = some s ∧ (!s.deleted) = true := by
    simpa [KeyedTable.isLive, showOf, Option.any_eq_true] using hlisted.2
  refine List.mem_map.mpr ⟨(showOf e, s), mem_listedShows.mpr ⟨hrow, ?_⟩, rfl⟩
  rw [showListed, hlive, searchListed_of_empty hshows, Bool.and_self]

/-- The database has one answer to each show list. -/
theorem showAnswers_unique {answer answer' : List ShowRow}
    (h : Answers (showOrder pg request) (showRows pg w lastSeenAt request) answer)
    (h' : Answers (showOrder pg request) (showRows pg w lastSeenAt request) answer') :
    answer = answer' := by
  have horder : Std.TransCmp (showOrder pg request) := by
    unfold showOrder
    infer_instance
  refine Answers.unique (fun a ha b hb htie => ?_) h h'
  exact List.inj_on_of_nodup_map nodup_keys_showRows ha hb (key_eq_of_listingOrder_tie htie)

end Shows

/-- **The show list adds up.**  Read page by page, with whatever page size and
order, it has each matching show once; the pages below a row have as many
seasons and episodes as the row says, by season too; and without a search its
episode counts add up to what the listing of all episodes reports. -/
theorem shows_addUp {pg : TextRules} {w : Warehouse} {lastSeenAt : RowKey → Int}
    {request : ListingRequest}
    {answers : ℕ → List ShowRow}
    (h : ∀ n, Answers (showOrder pg request) (showRows pg w lastSeenAt request) (answers n))
    (limit : Int) :
    ∃ fuel out,
      walkPages (fun n offset =>
        (queryShows pg w request (answers n) limit offset).toPage) fuel 0 0 =
        some out ∧
      (out.map ShowRow.key).Perm ((listedShows pg w request).map Prod.fst) ∧
      (∀ row ∈ out, DrillsDown pg w row) ∧
      (strip request.search = "" → ∀ listing : ListingRequest, strip listing.search = "" →
        strip listing.instanceName = "" → ∀ answer limit offset,
          (out.map ShowRow.episodeCount).sum =
            (queryAllEpisodes pg w listing answer limit offset).total) := by
  have hperm := (h 0).perm
  have htotal : (w.series.countWhere fun _ s => showListed pg request.search s) =
      (answers 0).length := by
    rw [hperm.length_eq, showRows, List.length_map]
    rfl
  have hpage : (fun n (offset : ℕ) => (queryShows pg w request (answers n) limit offset).toPage) =
      fun n start =>
        answerPage (answers n) (answers 0).length (clampLimit limit 200 2000) start := by
    funext n start
    rw [← htotal, queryShows, clampOffset_natCast]
    rfl
  refine ⟨(answers 0).length + 1, answers 0, ?_, ?_, fun row hrow => ?_,
    fun hshows listing hsearch hinst => ?_⟩
  · rw [hpage]
    exact walkPages_of_same (fun n => showAnswers_unique (h n) (h 0))
      (clampLimit_pos (by decide) (by decide))
      (by omega)
  · have hkeys : (showRows pg w lastSeenAt request).map ShowRow.key = _ := keys_showRows
    rw [← hkeys]
    exact hperm.map _
  · exact drillsDown_of_mem_showRows (hperm.mem_iff.mp hrow)
  · intro answer limit offset
    rw [(hperm.map ShowRow.episodeCount).sum_eq, sum_episodeCount hshows hsearch hinst]
    rfl

/-- A show with a special and two episodes, one of them gone, beside one
episode of a show that is gone. -/
def showWithSpecial : Warehouse where
  series :=
    markDeletedSourceIds (upsertSeries (upsertSeries KeyedTable.empty "default"
      { id := 1, title := some "Akira" } ⟨1, "full", String.toLower⟩) "default"
      { id := 2, title := some "Bebop" } ⟨1, "full", String.toLower⟩) "default" [2]
  episode :=
    markDeletedSourceIds
      (upsertEpisodes KeyedTable.empty "default" ⟨1, "full", String.toLower⟩ [
        { id := 10, seriesId := 1, seasonNumber := some 0 },
        { id := 11, seriesId := 1, seasonNumber := some 1 },
        { id := 12, seriesId := 1, seasonNumber := some 2 },
        { id := 20, seriesId := 2, seasonNumber := some 1 }])
      "default" [12]
  episodeFile := KeyedTable.empty
  movie := KeyedTable.empty
  movieFile := KeyedTable.empty

/-- The show is listed with the special and the episode that are left, and so
are all episodes. -/
theorem shows_addUp_showWithSpecial :
    ∃ fuel out,
      walkPages (fun n offset => (queryShows plainText showWithSpecial {}
        ((fun _ => showRows plainText showWithSpecial (fun _ => 0) {}) n) 1 offset).toPage)
          fuel 0 0 =
          some out ∧
      (∀ row ∈ out, DrillsDown plainText showWithSpecial row) ∧
      (out.map ShowRow.episodeCount).sum =
        (queryAllEpisodes plainText showWithSpecial {} [] 1 0).total ∧
      (out.map ShowRow.episodeCount).sum = 2 := by
  have hone : (showRows plainText showWithSpecial (fun _ => 0) {}).length = 1 := by decide +kernel
  have hanswer : ∀ n,
      Answers (showOrder plainText {}) (showRows plainText showWithSpecial (fun _ => 0) {})
      ((fun _ : ℕ => showRows plainText showWithSpecial (fun _ => 0) {}) n) := by
    intro n
    obtain ⟨row, hrow⟩ := List.length_eq_one_iff.mp hone
    refine ⟨List.Perm.refl _, ?_⟩
    rw [hrow]
    exact List.pairwise_singleton _ _
  obtain ⟨fuel, out, hout, -, hdrill, hsum⟩ := shows_addUp hanswer 1
  have htotal : (queryAllEpisodes plainText showWithSpecial {} [] 1 0).total = 2 := by
    decide +kernel
  have hall := hsum (by decide +kernel) {} (by decide +kernel) (by decide +kernel) [] 1 0
  exact ⟨fuel, out, hout, hdrill, hall, hall.trans htotal⟩

end Nebularr
