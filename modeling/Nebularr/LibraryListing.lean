import Nebularr.CandidateNames
import Nebularr.TiedPages

/-!
# The episode and movie listings

`_query_all_episodes` and `_query_movies` count the items that match and
select them with their files, a page at a time.  Both orders end in the
instance name and the source id of the item, which decides between items.  It
does not decide between two files of one item, and the count does not know of
them.
-/

namespace Nebularr

/-! ## Requests -/

/-- `clamp_limit`. -/
def clampLimit (limit : Int) (default maximum : ℕ) : ℕ :=
  if limit ≤ 0 then default else min limit.toNat maximum

/-- `clamp_offset`. -/
def clampOffset (offset : Int) : ℕ := if offset ≤ 0 then 0 else offset.toNat

/-- The answer to a paged request. -/
structure PagedResponse (ρ : Type) extends Page ρ where
  limit : ℕ
  offset : ℕ
deriving DecidableEq, Repr

/-- `paged_response`. -/
def pagedResponse {ρ : Type} (items : List ρ) (total limit offset : ℕ) : PagedResponse ρ where
  items := items
  total := total
  limit := limit
  offset := offset
  hasMore := decide (offset + items.length < total)

inductive SortDirection
  | asc
  | desc
deriving DecidableEq, Repr

/-- `normalize_sort`: unknown keys and directions are replaced by the default. -/
def normalizeSort {σ : Type} (sortBy sortDir : String) (allowed : List (String × σ))
    (defaultSort : σ) : σ × SortDirection :=
  ((allowed.lookup (strip sortBy).toLower).getD defaultSort,
    if (strip sortDir).toLower = "desc" then .desc else .asc)

/-- `search_params`: the trimmed text and its pattern. -/
def searchParams (search : String) : String × String :=
  (strip search, "%" ++ strip search ++ "%")

/-- What a listing request names besides its page. -/
structure ListingRequest where
  search : String := ""
  instanceName : String := ""
  sortBy : String := ""
  sortDir : String := ""
deriving DecidableEq, Repr

/-- What the queries leave to the database: pattern matching, and an order of
texts in which different texts do not tie. -/
structure TextRules where
  ilike : String → String → Bool
  collate : String → String → Ordering
  trans : Std.TransCmp collate
  eq_of_tie : ∀ a b, collate a b = .eq → a = b

instance (pg : TextRules) : Std.TransCmp pg.collate := pg.trans

/-- `(:instance_name = '' or … = :instance_name)`. -/
def instanceListed (wanted inst : String) : Bool := wanted = "" || inst = wanted

/-- `(:search = '' or … ilike :search_like or …)`. -/
def searchListed (pg : TextRules) (search : String) (titles : List String) : Bool :=
  (searchParams search).1 = "" || titles.any fun title => pg.ilike title (searchParams search).2

/-- `order by {sort_expr} {direction}, … .instance_name asc, … .source_id asc`;
a descending key has its nulls first. -/
def listingOrder {ρ : Type} (pg : TextRules) (sortExpr : ρ → ρ → Ordering)
    (direction : SortDirection) (key : ρ → RowKey) : ρ → ρ → Ordering :=
  compareLex
    (match direction with
      | .asc => sortExpr
      | .desc => fun a b => sortExpr b a)
    (compareLex (byColumn pg.collate fun row => (key row).instanceName)
      (byColumn compare fun row => (key row).sourceId))

section Order

variable {ρ : Type} {pg : TextRules} {sortExpr : ρ → ρ → Ordering} {direction : SortDirection}
  {key : ρ → RowKey}

instance [Std.TransCmp sortExpr] : Std.TransCmp (listingOrder pg sortExpr direction key) := by
  cases direction with
  | asc => exact inferInstanceAs (Std.TransCmp (compareLex sortExpr (compareLex _ _)))
  | desc =>
      exact inferInstanceAs (Std.TransCmp (compareLex (fun a b => sortExpr b a) (compareLex _ _)))

/-- **The order decides between items.** -/
theorem key_eq_of_listingOrder_tie {a b : ρ}
    (h : listingOrder pg sortExpr direction key a b = .eq) : key a = key b := by
  unfold listingOrder at h
  simp only [compareLex, Ordering.then_eq_eq] at h
  obtain ⟨-, hname, hid⟩ := h
  have hname := pg.eq_of_tie _ _ hname
  have hid := Std.LawfulEqOrd.eq_of_compare hid
  cases hkey : key a
  cases hkey' : key b
  simp_all

end Order

/-! ## The queries -/

/-- A row of `_query_all_episodes`: the joined rows its columns are read off. -/
structure EpisodeRow where
  key : RowKey
  episode : EpisodeCols
  series : SeriesCols
  file : Option (RowKey × MediaCols)
deriving DecidableEq, Repr

/-- A row of `_query_movies`; `last_seen_at` is kept outside `MovieCols`. -/
structure MovieRow where
  key : RowKey
  movie : MovieCols
  file : Option (RowKey × MediaCols)
  lastSeenAt : Int
deriving DecidableEq, Repr

inductive EpisodeSort
  | seriesTitle
  | instanceName
  | seasonNumber
  | episodeNumber
  | airDate
  | sizeBytes
deriving DecidableEq, Repr

inductive MovieSort
  | title
  | year
  | instanceName
  | sizeBytes
  | lastSeenAt
deriving DecidableEq, Repr

/-- The `sort_map` of `_query_all_episodes`. -/
def episodeSortMap : List (String × EpisodeSort) :=
  [("series_title", .seriesTitle), ("instance_name", .instanceName),
    ("season_number", .seasonNumber), ("episode_number", .episodeNumber), ("air_date", .airDate),
    ("size_bytes", .sizeBytes)]

/-- The `sort_map` of `_query_movies`. -/
def movieSortMap : List (String × MovieSort) :=
  [("title", .title), ("year", .year), ("instance_name", .instanceName),
    ("size_bytes", .sizeBytes), ("last_seen_at", .lastSeenAt)]

def EpisodeSort.expr (pg : TextRules) : EpisodeSort → EpisodeRow → EpisodeRow → Ordering
  | seriesTitle => byColumn pg.collate fun row => row.series.title
  | instanceName => byColumn pg.collate fun row => row.key.instanceName
  | seasonNumber => byColumn compare fun row => row.episode.seasonNumber
  | episodeNumber => byColumn compare fun row => row.episode.episodeNumber
  | airDate => byColumn (nullsLast compare) fun row => row.episode.airDate
  | sizeBytes => byColumn (nullsLast compare) fun row => row.file.bind fun file => file.2.sizeBytes

def MovieSort.expr (pg : TextRules) : MovieSort → MovieRow → MovieRow → Ordering
  | title => byColumn pg.collate fun row => row.movie.title
  | year => byColumn (nullsLast compare) fun row => row.movie.year
  | instanceName => byColumn pg.collate fun row => row.key.instanceName
  | sizeBytes => byColumn (nullsLast compare) fun row => row.file.bind fun file => file.2.sizeBytes
  | lastSeenAt => byColumn compare fun row => row.lastSeenAt

instance (pg : TextRules) (sort : EpisodeSort) : Std.TransCmp (sort.expr pg) := by
  cases sort <;> unfold EpisodeSort.expr <;> infer_instance

instance (pg : TextRules) (sort : MovieSort) : Std.TransCmp (sort.expr pg) := by
  cases sort <;> unfold MovieSort.expr <;> infer_instance

section Queries

variable (pg : TextRules) (w : Warehouse) (lastSeenAt : RowKey → Int) (request : ListingRequest)

/-- The live series of an episode that is listed. -/
def listedSeries (key : RowKey) (e : SoftRow EpisodeCols) : Option SeriesCols :=
  (joinedSeries w key e.cols).filter fun s =>
    !e.deleted && instanceListed (strip request.instanceName) key.instanceName &&
      searchListed pg request.search [s.title, e.cols.title]

/-- The `where` clause of the movie queries. -/
def movieListed (key : RowKey) (m : SoftRow MovieCols) : Bool :=
  !m.deleted && instanceListed (strip request.instanceName) key.instanceName &&
    searchListed pg request.search [m.cols.title]

/-- The files an episode row is joined with, under their ids. -/
def episodeFileRows (key : RowKey) (e : EpisodeCols) : List (Option (RowKey × MediaCols)) :=
  (leftJoin w.episodeFile.rows.entries fun file => episodeFileOn key e file.1 file.2).map
    fun joined => joined.map fun file => (file.1, file.2.cols.media)

/-- The files a movie row is joined with, under their ids. -/
def movieFileRows (key : RowKey) : List (Option (RowKey × MediaCols)) :=
  (leftJoin w.movieFile.rows.entries fun file => movieFileOn key file.1 file.2).map
    fun joined => joined.map fun file => (file.1, file.2.cols.media)

/-- The episodes that match. -/
def listedEpisodes : List (RowKey × SoftRow EpisodeCols) :=
  w.episode.selectWhere fun key e => (listedSeries pg w request key e).isSome

/-- The movies that match. -/
def listedMovies : List (RowKey × SoftRow MovieCols) :=
  w.movie.selectWhere (movieListed pg request)

/-- The rows of one episode. -/
def rowsOfEpisode (e : RowKey × SoftRow EpisodeCols) : List EpisodeRow :=
  (listedSeries pg w request e.1 e.2).toList.flatMap fun s =>
    (episodeFileRows w e.1 e.2.cols).map fun file => ⟨e.1, e.2.cols, s, file⟩

/-- The rows of one movie. -/
def rowsOfMovie (m : RowKey × SoftRow MovieCols) : List MovieRow :=
  (movieFileRows w m.1).map fun file => ⟨m.1, m.2.cols, file, lastSeenAt m.1⟩

/-- The rows of `_query_all_episodes` before its order and page. -/
def episodeRows : List EpisodeRow :=
  (listedEpisodes pg w request).flatMap (rowsOfEpisode pg w request)

/-- The rows of `_query_movies` before its order and page. -/
def movieRows : List MovieRow :=
  (listedMovies pg w request).flatMap (rowsOfMovie w lastSeenAt)

/-- The `order by` of `_query_all_episodes`. -/
def episodeOrder : EpisodeRow → EpisodeRow → Ordering :=
  let sort := normalizeSort request.sortBy request.sortDir episodeSortMap .seriesTitle
  listingOrder pg (sort.1.expr pg) sort.2 EpisodeRow.key

/-- The `order by` of `_query_movies`. -/
def movieOrder : MovieRow → MovieRow → Ordering :=
  let sort := normalizeSort request.sortBy request.sortDir movieSortMap .title
  listingOrder pg (sort.1.expr pg) sort.2 MovieRow.key

/-- `_query_all_episodes`, given the order that the database chose for the rows
of this query.  The count is a query of its own, over the join with series. -/
def queryAllEpisodes (answer : List EpisodeRow) (limit offset : Int) : PagedResponse EpisodeRow :=
  let total := w.episode.countWhere fun key e => (listedSeries pg w request key e).isSome
  let boundedLimit := clampLimit limit 500 5000
  let boundedOffset := clampOffset offset
  pagedResponse (slice answer boundedLimit boundedOffset) total boundedLimit boundedOffset

/-- `_query_movies`, given the order that the database chose for the rows of
this query. -/
def queryMovies (answer : List MovieRow) (limit offset : Int) : PagedResponse MovieRow :=
  let total := w.movie.countWhere (movieListed pg request)
  let boundedLimit := clampLimit limit 500 5000
  let boundedOffset := clampOffset offset
  pagedResponse (slice answer boundedLimit boundedOffset) total boundedLimit boundedOffset

end Queries

/-! ## Exports -/

/-- `EXPORT_ROW_CAP`. -/
def exportRowCap : ℕ := 100000

/-- `EXPORT_CHUNK_SIZE`. -/
def exportChunkSize : ℕ := 2000

/-- The `row_cap` of an export request. -/
def requestedRowCap (limit : Int) (exportAll : Bool) : ℕ :=
  if exportAll then exportRowCap else clampLimit limit exportRowCap exportRowCap

/-- `_iter_query_chunks`: the chunks are queries with `paged=False`, which
return the items alone. -/
def iterQueryChunks {ρ : Type} (query : ℕ → Int → Int → PagedResponse ρ) (rowCap : ℕ) :
    ℕ → ℕ → ℕ → ℕ → Option (List ρ) :=
  drainChunks (fun n limit offset => (query n limit offset).items) exportChunkSize rowCap

/-! ## The listings -/

/-- A page has room for a row. -/
theorem clampLimit_pos {limit : Int} {default maximum : ℕ} (hdefault : 0 < default)
    (hmaximum : 0 < maximum) : 0 < clampLimit limit default maximum := by
  unfold clampLimit
  split <;> omega

/-- A limit in bounds is taken as it is. -/
theorem clampLimit_of_le {limit default maximum : ℕ} (hpos : 0 < limit) (hle : limit ≤ maximum) :
    clampLimit limit default maximum = limit := by
  unfold clampLimit
  rw [if_neg (by omega), Int.toNat_natCast]
  omega

/-- An offset that is not negative is taken as it is. -/
@[simp] theorem clampOffset_natCast (offset : ℕ) : clampOffset offset = offset := by
  unfold clampOffset
  split <;> omega

section Joins

variable {w : Warehouse} {pg : TextRules} {request : ListingRequest} {lastSeenAt : RowKey → Int}

/-- An episode has a row for each file that is joined. -/
theorem length_episodeFileRows (key : RowKey) (e : EpisodeCols) :
    (episodeFileRows w key e).length = (episodeFiles w key e).length := by
  rw [episodeFileRows, episodeFiles, List.length_map, List.length_map]

/-- A movie has a row for each file that is joined. -/
theorem length_movieFileRows (key : RowKey) :
    (movieFileRows w key).length = (movieFiles w key).length := by
  rw [movieFileRows, movieFiles, List.length_map, List.length_map]

/-- A listed movie is listed once for each of its files. -/
theorem length_rowsOfMovie (m : RowKey × SoftRow MovieCols) :
    (rowsOfMovie w lastSeenAt m).length = (movieFiles w m.1).length := by
  rw [rowsOfMovie, List.length_map, length_movieFileRows]

/-- A listed episode is listed once for each of its files. -/
theorem length_rowsOfEpisode {e : RowKey × SoftRow EpisodeCols} {s : SeriesCols}
    (hs : listedSeries pg w request e.1 e.2 = some s) :
    (rowsOfEpisode pg w request e).length = (episodeFiles w e.1 e.2.cols).length := by
  rw [rowsOfEpisode, hs, Option.toList_some, List.flatMap_singleton, List.length_map,
    length_episodeFileRows]

/-- An outer join loses no row. -/
theorem movieFiles_ne_nil (w : Warehouse) (key : RowKey) : 0 < (movieFiles w key).length := by
  rw [movieFiles, List.length_map, length_leftJoin]
  omega

/-- An episode without a file is joined to none, which is one row. -/
theorem episodeFiles_ne_nil (w : Warehouse) (key : RowKey) (e : EpisodeCols) :
    0 < (episodeFiles w key e).length := by
  rw [episodeFiles, List.length_map, length_leftJoin]
  omega

/-- An episode is listed if it is on file and its series passes the filters. -/
theorem mem_listedEpisodes {e : RowKey × SoftRow EpisodeCols} :
    e ∈ listedEpisodes pg w request ↔
      w.episode.row e.1 = some e.2 ∧ ∃ s, listedSeries pg w request e.1 e.2 = some s := by
  rw [listedEpisodes, ← Option.isSome_iff_exists]
  exact KeyedTable.mem_selectWhere_iff

/-- A movie is listed if it is on file and passes the filters. -/
theorem mem_listedMovies {m : RowKey × SoftRow MovieCols} :
    m ∈ listedMovies pg w request ↔
      w.movie.row m.1 = some m.2 ∧ movieListed pg request m.1 m.2 = true :=
  KeyedTable.mem_selectWhere_iff

/-- The rows of an episode have its key. -/
theorem key_of_mem_rowsOfEpisode (e : RowKey × SoftRow EpisodeCols) :
    ∀ row ∈ rowsOfEpisode pg w request e, row.key = e.1 := by
  intro row hrow
  obtain ⟨s, -, hrow⟩ := List.mem_flatMap.mp hrow
  obtain ⟨file, -, rfl⟩ := List.mem_map.mp hrow
  rfl

/-- The rows of a movie have its key. -/
theorem key_of_mem_rowsOfMovie (m : RowKey × SoftRow MovieCols) :
    ∀ row ∈ rowsOfMovie w lastSeenAt m, row.key = m.1 := by
  intro row hrow
  obtain ⟨file, -, rfl⟩ := List.mem_map.mp hrow
  rfl

end Joins

/-- The episode listing: its items are the episodes that match. -/
def episodeListing (pg : TextRules) (w : Warehouse) (request : ListingRequest) :
    Listing RowKey EpisodeRow :=
  .ofJoin (listedEpisodes pg w request) (rowsOfEpisode pg w request) EpisodeRow.key
    (episodeOrder pg request) (by unfold episodeOrder; infer_instance)
    (KeyedTable.nodup_selectWhere _ _)
    (by
      intro e he
      obtain ⟨-, s, hs⟩ := mem_listedEpisodes.mp he
      rw [← List.length_pos_iff, length_rowsOfEpisode hs]
      exact episodeFiles_ne_nil w e.1 e.2.cols)
    key_of_mem_rowsOfEpisode
    (fun _ _ => key_eq_of_listingOrder_tie)

/-- The movie listing: its items are the movies that match. -/
def movieListing (pg : TextRules) (w : Warehouse) (lastSeenAt : RowKey → Int)
    (request : ListingRequest) : Listing RowKey MovieRow :=
  .ofJoin (listedMovies pg w request) (rowsOfMovie w lastSeenAt) MovieRow.key
    (movieOrder pg request) (by unfold movieOrder; infer_instance)
    (KeyedTable.nodup_selectWhere _ _)
    (by
      intro m _
      rw [← List.length_pos_iff, length_rowsOfMovie]
      exact movieFiles_ne_nil w m.1)
    key_of_mem_rowsOfMovie
    (fun _ _ => key_eq_of_listingOrder_tie)

/-! ## Reading a listing -/

/-- What the two clients of a listing get: every item once, and as many rows as
every response reports, whichever order the database chooses each time. -/
structure ListsOnce {ρ : Type} (L : Listing RowKey ρ)
    (query : List ρ → Int → Int → PagedResponse ρ) (limit : Int) (rowCap : ℕ) : Prop where
  walked : ∀ answers : ℕ → List ρ, (∀ n, Answers L.order L.rows (answers n)) →
    ∃ fuel out,
      walkPages (fun n offset => (query (answers n) limit offset).toPage) fuel 0 0 = some out ∧
        (out.map L.itemOf).Perm L.items ∧
          ∀ n limit offset, (query (answers n) limit offset).total = out.length
  drained : ∀ answers : ℕ → List ρ, (∀ n, Answers L.order L.rows (answers n)) →
    ∃ fuel out, iterQueryChunks (fun n => query (answers n)) rowCap fuel 0 0 0 = some out ∧
      (out.map L.itemOf).Perm L.items ∧
        ∀ n limit offset, (query (answers n) limit offset).total = out.length

/-- A query serves the pages of its answer. -/
def Serves {ρ : Type} (L : Listing RowKey ρ) (query : List ρ → Int → Int → PagedResponse ρ) :
    Prop :=
  ∀ answer limit offset, (query answer limit offset).toPage =
    answerPage answer L.items.length (clampLimit limit 500 5000) (clampOffset offset)

section Reading

variable {ρ : Type} {L : Listing RowKey ρ} {query : List ρ → Int → Int → PagedResponse ρ}
  {limit : Int} {rowCap : ℕ}

/-- The pages that are served are the pages of the answers. -/
theorem Serves.walk (h : Serves L query) (answers : ℕ → List ρ) :
    (fun n (offset : ℕ) => (query (answers n) limit offset).toPage) =
      fun n offset => answerPage (answers n) L.items.length (clampLimit limit 500 5000) offset := by
  funext n offset
  rw [h, clampOffset_natCast]

/-- Every page gives the total of the items. -/
theorem Serves.total (h : Serves L query) (answer : List ρ) (limit offset : Int) :
    (query answer limit offset).total = L.items.length :=
  congrArg Page.total (h answer limit offset)

/-- No chunk is larger than what a query may return. -/
theorem Serves.drain (h : Serves L query) (answers : ℕ → List ρ) (fuel n yielded offset : ℕ) :
    iterQueryChunks (fun n => query (answers n)) rowCap fuel n yielded offset =
      drainChunks (fun n limit start => slice (answers n) limit start) exportChunkSize rowCap fuel
        n yielded offset := by
  refine drainChunks_congr (by decide) ?_ fuel n yielded offset
  intro n limit offset hpos hle
  have hmaximum : limit ≤ 5000 := hle.trans (by decide)
  have hitems := congrArg Page.items (h (answers n) limit offset)
  rw [clampLimit_of_le hpos hmaximum, clampOffset_natCast] at hitems
  exact hitems

/-- The total that every response reports is the number of items. -/
theorem Serves.reads_iff (h : Serves L query) {answers : ℕ → List ρ} {out : List ρ} :
    ((out.map L.itemOf).Perm L.items ∧
        ∀ n limit offset, (query (answers n) limit offset).total = out.length) ↔
      L.ReadsOnce out L.items.length := by
  constructor
  · intro hreads
    exact ⟨hreads.1, (h.total (answers 0) 0 0).symm.trans (hreads.2 0 0 0)⟩
  · intro hreads
    exact ⟨hreads.once, fun n limit offset => (h.total _ limit offset).trans hreads.counted⟩

/-- Reading a listing once is losing nothing. -/
theorem Serves.listsOnce_iff (h : Serves L query) :
    ListsOnce L query limit rowCap ↔
      L.Lossless (clampLimit limit 500 5000) exportChunkSize rowCap := by
  constructor
  · intro hlists
    constructor
    · intro answers hanswers
      obtain ⟨fuel, out, hout, hreads⟩ := hlists.walked answers hanswers
      rw [h.walk] at hout
      exact ⟨fuel, out, hout, h.reads_iff.mp hreads⟩
    · intro answers hanswers
      obtain ⟨fuel, out, hout, hreads⟩ := hlists.drained answers hanswers
      rw [h.drain] at hout
      exact ⟨fuel, out, hout, h.reads_iff.mp hreads⟩
  · intro hlossless
    constructor
    · intro answers hanswers
      obtain ⟨fuel, out, hout, hreads⟩ := hlossless.walked answers hanswers
      refine ⟨fuel, out, ?_, h.reads_iff.mpr hreads⟩
      rw [h.walk]
      exact hout
    · intro answers hanswers
      obtain ⟨fuel, out, hout, hreads⟩ := hlossless.drained answers hanswers
      refine ⟨fuel, out, ?_, h.reads_iff.mpr hreads⟩
      rw [h.drain]
      exact hout

/-- **A listing is read once exactly where no item has two rows.** -/
theorem Serves.listsOnce_iff_nodup (h : Serves L query) (hcap : L.rows.length ≤ rowCap) :
    ListsOnce L query limit rowCap ↔ (L.rows.map L.itemOf).Nodup := by
  rw [h.listsOnce_iff]
  exact Listing.lossless_iff (clampLimit_pos (by decide) (by decide)) (by decide) hcap

end Reading

section Condition

variable (pg : TextRules) (w : Warehouse) (request : ListingRequest)

/-- Each listed episode that does not know its own file has one live file at
most. -/
def EpisodesHaveOneFile : Prop :=
  ∀ key e, w.episode.row key = some e → (listedSeries pg w request key e).isSome = true →
    e.cols.episodeFileId = none → w.liveEpisodeFiles key ≤ 1

/-- Each listed movie has one live file at most. -/
def MoviesHaveOneFile : Prop :=
  ∀ key m, w.movie.row key = some m → movieListed pg request key m = true →
    w.liveMovieFiles key ≤ 1

variable {pg w request} {lastSeenAt : RowKey → Int}

/-- The listing of the episodes serves its pages. -/
theorem serves_queryAllEpisodes :
    Serves (episodeListing pg w request) (queryAllEpisodes pg w request) := by
  intro answer limit offset
  have hitems : (episodeListing pg w request).items.length =
      w.episode.countWhere fun key e => (listedSeries pg w request key e).isSome :=
    List.length_map Prod.fst
  rw [hitems]
  rfl

/-- The listing of the movies serves its pages. -/
theorem serves_queryMovies :
    Serves (movieListing pg w lastSeenAt request) (queryMovies pg w request) := by
  intro answer limit offset
  have hitems : (movieListing pg w lastSeenAt request).items.length =
      w.movie.countWhere (movieListed pg request) := List.length_map Prod.fst
  rw [hitems]
  rfl

/-- No episode is listed twice if those listed have one file at most. -/
theorem nodup_episodeRows_iff :
    ((episodeListing pg w request).rows.map (episodeListing pg w request).itemOf).Nodup ↔
      EpisodesHaveOneFile pg w request := by
  have hjoin : ((episodeRows pg w request).map EpisodeRow.key).Nodup ↔
      ∀ e ∈ listedEpisodes pg w request, (rowsOfEpisode pg w request e).length ≤ 1 :=
    Listing.nodup_join_iff (KeyedTable.nodup_selectWhere _ _) key_of_mem_rowsOfEpisode
  refine hjoin.trans ⟨?_, ?_⟩
  · intro h key e he hlisted hfid
    obtain ⟨s, hs⟩ := Option.isSome_iff_exists.mp hlisted
    have hone := h (key, e) (mem_listedEpisodes.mpr ⟨he, s, hs⟩)
    rw [length_rowsOfEpisode hs] at hone
    exact (length_episodeFiles_le_one_iff hfid).mp hone
  · intro h e he
    obtain ⟨hrow, s, hs⟩ := mem_listedEpisodes.mp he
    rw [length_rowsOfEpisode hs]
    cases hfid : e.2.cols.episodeFileId with
    | some fid => exact length_episodeFiles_of_known hfid
    | none =>
        have hone := h e.1 e.2 hrow (Option.isSome_iff_exists.mpr ⟨s, hs⟩) hfid
        exact (length_episodeFiles_le_one_iff hfid).mpr hone

/-- No movie is listed twice if those listed have one file at most. -/
theorem nodup_movieRows_iff :
    ((movieListing pg w lastSeenAt request).rows.map
      (movieListing pg w lastSeenAt request).itemOf).Nodup ↔ MoviesHaveOneFile pg w request := by
  have hjoin : ((movieRows pg w lastSeenAt request).map MovieRow.key).Nodup ↔
      ∀ m ∈ listedMovies pg w request, (rowsOfMovie w lastSeenAt m).length ≤ 1 :=
    Listing.nodup_join_iff (KeyedTable.nodup_selectWhere _ _) key_of_mem_rowsOfMovie
  refine hjoin.trans ⟨?_, ?_⟩
  · intro h key m hm hlisted
    have hone := h (key, m) (mem_listedMovies.mpr ⟨hm, hlisted⟩)
    rw [length_rowsOfMovie] at hone
    exact length_movieFiles_le_one_iff.mp hone
  · intro h m hm
    obtain ⟨hrow, hlisted⟩ := mem_listedMovies.mp hm
    rw [length_rowsOfMovie]
    exact length_movieFiles_le_one_iff.mpr (h m.1 m.2 hrow hlisted)

end Condition

/-- **Pages and exports lose and repeat nothing exactly where each listed item
has one live file.** -/
theorem listings_listOnce_iff (pg : TextRules) (w : Warehouse) (lastSeenAt : RowKey → Int)
    (request : ListingRequest) (limit exportLimit : Int) (exportAll : Bool) :
    ((episodeRows pg w request).length ≤ requestedRowCap exportLimit exportAll →
      (ListsOnce (episodeListing pg w request) (queryAllEpisodes pg w request) limit
        (requestedRowCap exportLimit exportAll) ↔ EpisodesHaveOneFile pg w request)) ∧
      ((movieRows pg w lastSeenAt request).length ≤ requestedRowCap exportLimit exportAll →
        (ListsOnce (movieListing pg w lastSeenAt request) (queryMovies pg w request) limit
          (requestedRowCap exportLimit exportAll) ↔ MoviesHaveOneFile pg w request)) := by
  constructor
  · intro hcap
    exact (serves_queryAllEpisodes.listsOnce_iff_nodup hcap).trans nodup_episodeRows_iff
  · intro hcap
    exact (serves_queryMovies.listsOnce_iff_nodup hcap).trans nodup_movieRows_iff

/-- Texts by code point, and patterns that match everything. -/
def plainText : TextRules where
  ilike _ _ := true
  collate := compare
  trans := inferInstance
  eq_of_tie _ _ := Std.LawfulEqOrd.eq_of_compare

/-- Two movies, the first with its file. -/
def twoMovies : Warehouse where
  series := KeyedTable.empty
  episode := KeyedTable.empty
  episodeFile := KeyedTable.empty
  movie :=
    upsertMovie (upsertMovie KeyedTable.empty "default" { id := 1, title := some "Akira" }
      ⟨1, "full", String.toLower⟩) "default" { id := 2, title := some "Akira" }
        ⟨1, "full", String.toLower⟩
  movieFile := upsertMovieFile KeyedTable.empty "default" 1 21 { id := some 21 }
    ⟨1, "full", String.toLower⟩

/-- They are listed without loss, also one by one. -/
theorem listings_listOnce_twoMovies :
    ((movieRows plainText twoMovies (fun _ => 0) {}).length = 2 ∧
      (movieRows plainText twoMovies (fun _ => 0) {}).length ≤ requestedRowCap 0 true) ∧
      ListsOnce (movieListing plainText twoMovies (fun _ => 0) {})
        (queryMovies plainText twoMovies {}) 1 (requestedRowCap 0 true) := by
  have hlength : (movieRows plainText twoMovies (fun _ => 0) {}).length = 2 := by decide +kernel
  have hmovies : (movieRows plainText twoMovies (fun _ => 0) {}).length ≤
      requestedRowCap 0 true := by
    rw [hlength]
    decide
  refine ⟨⟨hlength, hmovies⟩, ?_⟩
  refine ((listings_listOnce_iff plainText twoMovies (fun _ => 0) {} 1 0 true).2 hmovies).mpr ?_
  intro key m _ _
  -- there is one file in all
  have hfiles : twoMovies.movieFile.rows.entries.length = 1 := by decide +kernel
  rw [Warehouse.liveMovieFiles, KeyedTable.countWhere_eq_countP, ← hfiles]
  exact List.countP_le_length

/-- Below the cap, a movie whose second file has just been written is listed
twice and counted once. -/
theorem not_listsOnce_reimported :
    ¬ ∀ (inst : String) (sonarr : SonarrLibrary) (radarr : RadarrLibrary) (w : World),
      Reachable (World.step inst) (.idle Warehouse.empty sonarr radarr) w →
        ∀ (pg : TextRules) (lastSeenAt : RowKey → Int) (request : ListingRequest)
          (limit exportLimit : Int) (exportAll : Bool),
          (episodeRows pg w.wh request).length ≤ requestedRowCap exportLimit exportAll →
          (movieRows pg w.wh lastSeenAt request).length ≤
            requestedRowCap exportLimit exportAll →
          ListsOnce (episodeListing pg w.wh request) (queryAllEpisodes pg w.wh request) limit
              (requestedRowCap exportLimit exportAll) ∧
            ListsOnce (movieListing pg w.wh lastSeenAt request) (queryMovies pg w.wh request)
              limit (requestedRowCap exportLimit exportAll) := by
  intro h
  have htwice : (replay (World.step "default") reimported
      (.idle Warehouse.empty emptiedLibrary emptyRadarr)).map (fun w =>
        ((episodeRows plainText w.wh {}).length,
          (movieRows plainText w.wh (fun _ => 0) {}).map MovieRow.key)) =
            some (0, [⟨1, "default"⟩, ⟨1, "default"⟩]) := by
    decide +kernel
  obtain ⟨w, hw, hfound⟩ := Option.map_eq_some_iff.mp htwice
  obtain ⟨hnone, hkeys⟩ := Prod.mk.inj hfound
  have hepisodes : (episodeRows plainText w.wh {}).length ≤ requestedRowCap 0 true := by
    rw [hnone]
    exact Nat.zero_le _
  have hlength := congrArg List.length hkeys
  rw [List.length_map] at hlength
  have hcap : (movieRows plainText w.wh (fun _ => 0) {}).length ≤ requestedRowCap 0 true := by
    rw [hlength]
    decide
  have hlists := h "default" emptiedLibrary emptyRadarr w (reachable_of_replay hw) plainText
    (fun _ => 0) {} 1 0 true hepisodes hcap
  have hnodup := (serves_queryMovies.listsOnce_iff_nodup hcap).mp hlists.2
  have hrows : (movieListing plainText w.wh (fun _ => 0) {}).rows.map
      (movieListing plainText w.wh (fun _ => 0) {}).itemOf =
        [⟨1, "default"⟩, ⟨1, "default"⟩] := hkeys
  rw [hrows] at hnodup
  revert hnodup
  decide

end Nebularr
