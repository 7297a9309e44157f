import Nebularr.Candidates
import Nebularr.InsertSelect
import Nebularr.PythonText

/-!
# The MAL matcher

A run links dubbed anime to series and movies.  It deletes the links it made
before, matches by external ids, falls back to title and year for an anime
that has no link at all, applies the manual links, and then writes the ids of
the linked items back as external ids of the anime.  All of it is one
transaction: a statement that raises leaves the tables as they were.
-/

namespace Nebularr

/-- The sites whose external ids the matcher reads. -/
inductive ExternalSite
  | tvdb
  | tmdb
  | imdb
deriving DecidableEq, Repr

/-- `mal.warehouse_link.match_method`. -/
inductive MatchMethod
  | tvdb
  | tmdb
  | imdb
  | titleYear
  | manual
deriving DecidableEq, Repr

/-- `mal.warehouse_link.confidence`. -/
inductive Confidence
  | high
  | medium
  | low
deriving DecidableEq, Repr

/-- A row of `mal.warehouse_link`. -/
structure LinkRow where
  warehouseSourceId : Int
  matchMethod : MatchMethod
  confidence : Confidence
deriving DecidableEq, Repr

/-- The columns of `mal.anime` that the matcher reads. -/
structure AnimeCols where
  isEnglishDubbed : Bool
  mainTitle : Option String := none
  additionalTitles : List String := []
  startDate : Option String := none
  mediaType : Option String := none
deriving DecidableEq, Repr

/-- What a run reads and does not write. -/
structure MatcherInput where
  anime : KeyedTable Int AnimeCols
  manualLink : KeyedTable LinkKey Int
  warehouse : Warehouse
  sonarrInstances : List String
  radarrInstances : List String
  allowTitleYearMatch : Bool

/-- `mal.anime_external_id`. -/
abbrev ExternalIds := KeyedTable (Int × ExternalSite) String

/-- `mal.warehouse_link`. -/
abbrev WarehouseLinks := KeyedTable LinkKey LinkRow

/-- What a run writes. -/
structure MatcherTables where
  externalId : ExternalIds
  warehouseLink : WarehouseLinks

/-- `a.is_english_dubbed = true`, for the anime under an id. -/
def MatcherInput.isDubbed (input : MatcherInput) (malId : Int) : Bool :=
  (input.anime.row malId).any AnimeCols.isEnglishDubbed

/-! ## Matching by external id -/

/-- `trim(text)`: spaces only. -/
def sqlTrim (text : String) : String :=
  String.ofList ((text.toList.dropWhile (· = ' ')).reverse.dropWhile (· = ' ')).reverse

/-- `replace(text, 'tt', '')`. -/
def dropTt : List Char → List Char
  | 't' :: 't' :: rest => dropTt rest
  | c :: rest => c :: dropTt rest
  | [] => []

/-- What two ids of a site are compared by. -/
def matchKey : ExternalSite → String → String
  | .tvdb, text => sqlTrim text
  | .tmdb, text => sqlTrim text
  | .imdb, text => (sqlTrim (String.ofList (dropTt text.toList))).toLower

/-- What the ids of a site name. -/
def siteEntity : ExternalSite → ArrEntity
  | .tvdb => .sonarrSeries
  | .tmdb => .radarrMovie
  | .imdb => .radarrMovie

def siteMethod : ExternalSite → MatchMethod
  | .tvdb => .tvdb
  | .tmdb => .tmdb
  | .imdb => .imdb

/-- The live rows of a table with an id: `deleted = false` and
`nullif(trim(id), '') is not null`. -/
def liveIds {α : Type} (t : WarehouseTable α) (id : α → Option String) : List (RowKey × String) :=
  t.rows.entries.filterMap fun e =>
    if e.2.deleted then none
    else ((id e.2.cols).filter fun text => sqlTrim text ≠ "").map fun text => (e.1, text)

/-- The ids of a site in the warehouse. -/
def siteIds (w : Warehouse) : ExternalSite → List (RowKey × String)
  | .tvdb => liveIds w.series fun s => s.payload.tvdbId
  | .tmdb => liveIds w.movie fun m => m.payload.tmdbId
  | .imdb => liveIds w.movie fun m => m.payload.imdbId

/-- The joined rows of an exact match: the link and the item it would name. -/
def exactCandidates (input : MatcherInput) (ext : ExternalIds) (site : ExternalSite) :
    List (LinkKey × Int) :=
  ext.rows.entries.flatMap fun e =>
    if e.1.2 = site ∧ input.isDubbed e.1.1 = true then
      (siteIds input.warehouse site).filterMap fun item =>
        if matchKey site item.2 = matchKey site e.2 then
          some (⟨e.1.1, item.1.instanceName, siteEntity site⟩, item.1.sourceId)
        else none
    else []

/-- `select distinct on (mal_id, instance_name) … order by …, source_id`. -/
def exactLinks (input : MatcherInput) (ext : ExternalIds) (site : ExternalSite) :
    List (LinkKey × Int) :=
  distinctOn Prod.fst ((exactCandidates input ext site).insertionSort fun a b => a.2 ≤ b.2)

/-- `insert_tvdb_series_links`, `insert_tmdb_radarr_links` and
`insert_imdb_radarr_links`. -/
def insertExactLinks (input : MatcherInput) (ext : ExternalIds) (site : ExternalSite)
    (links : WarehouseLinks) : Option WarehouseLinks :=
  links.putAll ((exactLinks input ext site).map fun link =>
    (link.1, ⟨link.2, siteMethod site, .high⟩))

def insertTvdbSeriesLinks (input : MatcherInput) (ext : ExternalIds) :
    WarehouseLinks → Option WarehouseLinks := insertExactLinks input ext .tvdb

def insertTmdbRadarrLinks (input : MatcherInput) (ext : ExternalIds) :
    WarehouseLinks → Option WarehouseLinks := insertExactLinks input ext .tmdb

def insertImdbRadarrLinks (input : MatcherInput) (ext : ExternalIds) :
    WarehouseLinks → Option WarehouseLinks := insertExactLinks input ext .imdb

/-! ## Matching by title and year -/

/-- `str.lower` of a character, where it comes to an ASCII one: besides the
capitals of ASCII, U+0130 gives an `i` with a combining dot, and U+212A a `k`. -/
def lowerToAscii (c : Char) : Char :=
  if c.toNat = 0x130 then 'i' else if c.toNat = 0x212a then 'k' else c.toLower

/-- `_norm_title`. -/
def normTitle (value : String) : String :=
  String.ofList ((value.toList.map lowerToAscii).filter fun c =>
    ('a' ≤ c && c ≤ 'z') || ('0' ≤ c && c ≤ '9'))

/-- `str(x).strip()` is not empty. -/
def nonBlank (text : String) : Bool := text.toList.any fun c => !c.isWhitespace

/-- `_normalized_title_variants`. -/
def normalizedTitleVariants (mainTitle : Option String) (additionalTitles : List String) :
    List String :=
  distinctOn id ((((mainTitle.toList ++ additionalTitles).filter nonBlank).map normTitle).filter
    (· ≠ ""))

/-- `_mal_year`. -/
def malYear (startDate : Option String) : Option Int :=
  startDate.bind fun text =>
    if text.toList.length < 4 then none else pyInt (text.toList.take 4)

/-- A live item of an instance: its id, title and year. -/
structure TitledItem where
  sourceId : Int
  title : String
  year : Option Int
deriving DecidableEq, Repr

/-- `select source_id, title, payload … where instance_name = … and deleted = false`. -/
def titledItems {α : Type} (t : WarehouseTable α) (title : α → String) (year : α → Option Int)
    (inst : String) : List TitledItem :=
  (t.rows.entries.filter fun e => decide (e.1.instanceName = inst) && !e.2.deleted).map fun e =>
    ⟨e.1.sourceId, title e.2.cols, year e.2.cols⟩

/-- The candidates of one normalized title, cut to the near years when there
are any, if that leaves one. -/
def matchByNorm (items : List TitledItem) (year : Option Int) (norm : String) : Option Int :=
  let candidates := items.filter fun item => normTitle item.title = norm
  let close := candidates.filter fun item =>
    year.all fun my => item.year.all fun y => (y - my).natAbs ≤ 1
  let filtered := if close = [] then candidates else close
  match filtered with
  | [item] => some item.sourceId
  | _ => none

/-- The item an anime matches among those of an instance. -/
def titleYearMatch (items : List TitledItem) (a : AnimeCols) : Option Int :=
  (normalizedTitleVariants a.mainTitle a.additionalTitles).findSome?
    (matchByNorm items (malYear a.startDate))

/-- `str(media_type or "").lower() == "movie"`.  No other letter lowers to one of
these five. -/
def AnimeCols.isMovie (a : AnimeCols) : Bool := (a.mediaType.getD "").toLower = "movie"

/-- `coalesce(trim(main_title), '') <> ''` or additional titles. -/
def AnimeCols.titled (a : AnimeCols) : Bool :=
  decide (sqlTrim (a.mainTitle.getD "") ≠ "") || !a.additionalTitles.isEmpty

/-- No link of the anime, of whatever method, is on file. -/
def hasNoLink (links : WarehouseLinks) (malId : Int) : Bool :=
  !links.rows.entries.any fun l => l.1.malId = malId

/-- The anime `_apply_title_year` considers. -/
def titleYearAnime (input : MatcherInput) (links : WarehouseLinks) : List (Int × AnimeCols) :=
  input.anime.selectWhere fun malId a =>
    a.isEnglishDubbed && hasNoLink links malId && a.titled

/-- The links of one application, instance by instance. -/
def titleYearRows (anime : List (Int × AnimeCols)) (entity : ArrEntity)
    (items : String → List TitledItem) (instances : List String) : List (LinkKey × LinkRow) :=
  instances.flatMap fun inst => anime.filterMap fun a =>
    (titleYearMatch (items inst) a.2).map fun sid =>
      (⟨a.1, inst, entity⟩, ⟨sid, .titleYear, .medium⟩)

/-- `_apply_title_year`: series for all but movies, then movies. -/
def applyTitleYear (input : MatcherInput) (links : WarehouseLinks) : WarehouseLinks :=
  if input.allowTitleYearMatch then
    let anime := titleYearAnime input links
    let series := titledItems input.warehouse.series SeriesCols.title fun s => s.payload.year
    let movies := titledItems input.warehouse.movie MovieCols.title fun m => m.payload.year
    (links.putEach (titleYearRows (anime.filter fun a => !a.2.isMovie) .sonarrSeries series
      input.sonarrInstances)).putEach
        (titleYearRows (anime.filter fun a => a.2.isMovie) .radarrMovie movies
          input.radarrInstances)
  else links

/-! ## The run -/

/-- `delete_links_for_undubbed`. -/
def deleteLinksForUndubbed (input : MatcherInput) (links : WarehouseLinks) : WarehouseLinks :=
  links.deleteWhere fun key _ => (input.anime.row key.malId).any fun a => !a.isEnglishDubbed

/-- `clear_auto_warehouse_links`. -/
def clearAutoWarehouseLinks (links : WarehouseLinks) : WarehouseLinks :=
  links.deleteWhere fun _ link =>
    link.matchMethod ∈ [MatchMethod.tvdb, .tmdb, .imdb, .titleYear]

/-- `upsert_manual_warehouse_links`. -/
def upsertManualWarehouseLinks (input : MatcherInput) (links : WarehouseLinks) :
    Option WarehouseLinks :=
  links.putAll (input.manualLink.rows.entries.map fun m => (m.1, ⟨m.2, .manual, .high⟩))

/-- The rows that `backfill_external_ids_from_links` proposes for a site. -/
def backfillRows (input : MatcherInput) (links : WarehouseLinks) (site : ExternalSite) :
    List ((Int × ExternalSite) × String) :=
  (links.rows.entries.flatMap fun l =>
    if input.isDubbed l.1.malId = true ∧ l.1.arrEntity = siteEntity site then
      (siteIds input.warehouse site).filterMap fun item =>
        if item.1 = ⟨l.2.warehouseSourceId, l.1.instanceName⟩ then
          some ((l.1.malId, site), sqlTrim item.2)
        else none
    else []).dedup

/-- `backfill_external_ids_from_links`. -/
def backfillExternalIdsFromLinks (input : MatcherInput) (links : WarehouseLinks)
    (ext : ExternalIds) : Option ExternalIds := do
  let ext ← ext.putAll (backfillRows input links .tvdb)
  let ext ← ext.putAll (backfillRows input links .tmdb)
  ext.putAll (backfillRows input links .imdb)

/-- The run up to the backfill. -/
def linkSteps (input : MatcherInput) (t : MatcherTables) : Option WarehouseLinks := do
  let links := clearAutoWarehouseLinks (deleteLinksForUndubbed input t.warehouseLink)
  let links ← insertTvdbSeriesLinks input t.externalId links
  let links ← insertTmdbRadarrLinks input t.externalId links
  let links ← insertImdbRadarrLinks input t.externalId links
  upsertManualWarehouseLinks input (applyTitleYear input links)

/-- `MalMatcherService.run`, its transaction: nothing when a statement raises. -/
def runMatcher (input : MatcherInput) (t : MatcherTables) : Option MatcherTables := do
  let links ← linkSteps input t
  let ext ← backfillExternalIdsFromLinks input links t.externalId
  return ⟨ext, links⟩

/-- The tables after a run; a run that raised is rolled back. -/
def afterMatcher (input : MatcherInput) (t : MatcherTables) : MatcherTables :=
  (runMatcher input t).getD t

/-! ## What the steps do to a link -/

section Steps

variable {input : MatcherInput} {ext : ExternalIds} {links : WarehouseLinks}

/-- The link an exact match makes under a key. -/
def exactLink (input : MatcherInput) (ext : ExternalIds) (site : ExternalSite) (key : LinkKey) :
    Option LinkRow :=
  ((exactLinks input ext site).find? fun link => link.1 = key).map fun link =>
    ⟨link.2, siteMethod site, .high⟩

variable (input ext links) in
/-- An exact match proposes no key twice. -/
theorem exists_insertExactLinks (site : ExternalSite) :
    ∃ links', insertExactLinks input ext site links = some links' ∧
      ∀ key, links'.row key = (exactLink input ext site key).or (links.row key) := by
  have hnodup : (((exactLinks input ext site).map fun link =>
      ((link.1, ⟨link.2, siteMethod site, .high⟩) : LinkKey × LinkRow)).map Prod.fst).Nodup := by
    rw [List.map_map]
    exact nodup_map_distinctOn Prod.fst _
  obtain ⟨links', hlinks'⟩ := Option.isSome_iff_exists.mp
    ((KeyedTable.isSome_putAll_iff (t := links)).mpr hnodup)
  refine ⟨links', hlinks', fun key => ?_⟩
  rw [KeyedTable.row_putAll hlinks', List.find?_map, exactLink, Option.map_map]
  rfl

variable (input links) in
/-- The manual links overwrite what the matches found. -/
theorem exists_upsertManualWarehouseLinks :
    ∃ links', upsertManualWarehouseLinks input links = some links' ∧
      ∀ key, links'.row key =
        ((input.manualLink.row key).map fun sid => (⟨sid, .manual, .high⟩ : LinkRow)).or
          (links.row key) := by
  have hnodup : ((input.manualLink.rows.entries.map fun m =>
      ((m.1, ⟨m.2, .manual, .high⟩) : LinkKey × LinkRow)).map Prod.fst).Nodup := by
    rw [List.map_map]
    exact input.manualLink.rows.nodupKeys
  obtain ⟨links', hlinks'⟩ := Option.isSome_iff_exists.mp
    ((KeyedTable.isSome_putAll_iff (t := links)).mpr hnodup)
  refine ⟨links', hlinks', fun key => ?_⟩
  rw [KeyedTable.row_putAll hlinks', List.find?_map]
  congr 1
  cases hfind : input.manualLink.rows.entries.find? ((fun r => decide (r.1 = key)) ∘ fun m =>
      ((m.1, ⟨m.2, .manual, .high⟩) : LinkKey × LinkRow)) with
  | none =>
      have hnone : input.manualLink.row key = none := by
        rw [Option.eq_none_iff_forall_not_mem]
        intro sid hsid
        have hmem := KeyedTable.row_eq_some_iff.mp hsid
        simpa using List.find?_eq_none.mp hfind _ hmem
      rw [hnone]
      rfl
  | some m =>
      have hkey : m.1 = key := by simpa using List.find?_some hfind
      have hrow : input.manualLink.row key = some m.2 := by
        rw [KeyedTable.row_eq_some_iff, ← hkey]
        exact List.mem_of_find?_eq_some hfind
      rw [hrow]
      simp [hkey]

end Steps

end Nebularr
