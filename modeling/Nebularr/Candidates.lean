import Mathlib.Data.List.Sort
import Nebularr.ActionLedger
import Nebularr.ThreeValued
import Nebularr.Warehouse

/-!
# The candidate queries

A rule compiles to one query for each entity and sense.  Movies have both
senses as row predicates over a movie and its file.  For a series rule the
failing rows are episodes, and the conforming rows are whole series: those
with an episode that counts and without one that fails.

Conditions are three-valued (`Truth`), in the order in which the compiler
lists them; a bind the rule does not need is simply not read.
-/

namespace Nebularr

/-! ## What the queries read besides the warehouse -/

/-- `mal.anime.dub_status`. -/
inductive DubStatus
  | noDub
  | partlyDubbed
  | dubbed
deriving DecidableEq, Repr

/-- `mal.warehouse_link.arr_entity`. -/
inductive ArrEntity
  | sonarrSeries
  | radarrMovie
deriving DecidableEq, Repr

/-- The unique key of `mal.warehouse_link`. -/
structure LinkKey where
  malId : Int
  instanceName : String
  arrEntity : ArrEntity
deriving DecidableEq, Repr

/-- The `mal` schema: `dub_status` of each anime, and the warehouse row each
link names. -/
structure MalTables where
  anime : KeyedTable Int DubStatus
  warehouseLink : KeyedTable LinkKey Int

/-- How text is put in lower case: by `str.lower`, which a rule's words go
through, and by the database's `lower` under its locale. -/
structure Lowering where
  python : String → String
  sql : String → String

/-- A service and a database that lower the letters of ASCII. -/
def Lowering.ascii : Lowering := ⟨String.toLower, String.toLower⟩

/-- Everything a rule query reads except the ledger, and how the query lowers
text. -/
structure Catalog where
  warehouse : Warehouse
  mal : MalTables
  lower : Lowering

/-- The binds of a rule query that do not come from the rule; `tagIds` are the
ids of the rule's tag labels on the instance. -/
structure QueryBinds where
  instanceName : String
  now : Int
  cooldownDays : ℕ
  tagIds : List Int
deriving DecidableEq, Repr

/-- The row of the `dub` lateral. -/
structure DubRow where
  malId : Int
  dubStatus : DubStatus
deriving DecidableEq, Repr

/-- `case ma.dub_status when 'dubbed' then 2 else 1 end`. -/
def DubStatus.rank : DubStatus → ℕ
  | dubbed => 2
  | _ => 1

/-- `order by … desc, wl.mal_id`. -/
def dubOrder (a b : DubRow) : Prop :=
  b.dubStatus.rank < a.dubStatus.rank ∨
    (b.dubStatus.rank = a.dubStatus.rank ∧ a.malId ≤ b.malId)

instance (a b : DubRow) : Decidable (dubOrder a b) := by unfold dubOrder; infer_instance

/-- The links of one item to an anime that has a dub. -/
def dubLinks (mal : MalTables) (arrEntity : ArrEntity) (inst : String) (sourceId : Int) :
    List DubRow :=
  mal.warehouseLink.rows.entries.filterMap fun link =>
    if link.1.arrEntity = arrEntity ∧ link.1.instanceName = inst ∧ link.2 = sourceId then
      ((mal.anime.row link.1.malId).filter fun status => status ≠ .noDub).map fun status =>
        ⟨link.1.malId, status⟩
    else
      none

/-- The rows of `join lateral (… limit 1) dub on true`: one, or the item is
dropped. -/
def dubGate (mal : MalTables) (arrEntity : ArrEntity) (inst : String) (sourceId : Int) :
    Option DubRow :=
  ((dubLinks mal arrEntity inst sourceId).insertionSort dubOrder).head?

/-! ## Fragments -/

/-- `lower(coalesce(column, ''))`. -/
def Lowering.column (lower : Lowering) (column : Option String) : String :=
  lower.sql (column.getD "")

section Fragments

variable (lower : Lowering)

/-- `_require_fragments`: the clauses of `require` on the joined file, all of
whose columns are null when there is none. -/
def requireFragments (require : RuleRequire) (file : Option MediaCols) : List Truth :=
  (if require.audioLanguageAny ≠ [] then
    [.existsRow ((file.map MediaCols.audioLanguages).getD []) fun al =>
      .ofBool (al ∈ require.audioLanguageAny.map lower.python)] else []) ++
  (if require.subtitleLanguageAny ≠ [] then
    [.existsRow ((file.map MediaCols.subtitleLanguages).getD []) fun sl =>
      .ofBool (sl ∈ require.subtitleLanguageAny.map lower.python)] else []) ++
  (require.resolutionMin.elim [] fun floor =>
    [.ofBool (floor ≤ (file.bind MediaCols.videoResolution).getD 0)]) ++
  (if require.videoCodecAny ≠ [] then
    [.ofBool (lower.column (file.bind MediaCols.videoCodec) ∈
      require.videoCodecAny.map lower.python)] else []) ++
  (if require.qualityAny ≠ [] then
    [.ofBool ((file.bind MediaCols.quality).getD "" ∈ require.qualityAny)] else [])

/-- `{has_file} and {alias}.source_id is not null and {req_expr}`. -/
def conformingRow (require : RuleRequire) (hasFile : Option Bool) (file : Option MediaCols) :
    Truth :=
  .all (.ofBool (hasFile.getD false) :: .ofBool file.isSome ::
    requireFragments lower require file)

/-- `_jsonb_text_any`. -/
def jsonbTextAny (values wanted : List String) : Truth :=
  .existsRow values fun v => .ofBool (lower.sql v ∈ wanted.map lower.python)

/-- The `tags_any` fragment: `tg ~ '^[0-9]+$' and tg::int = any(:tag_ids)`. -/
def tagFragment (tags tagIds : List Int) : Truth :=
  .existsRow tags fun tg => .ofBool (decide (0 ≤ tg) && decide (tg ∈ tagIds))

/-- `folder_separator`. -/
def folderSeparator (folder : String) : Char :=
  if '\\' ∈ folder.toList ∧ '/' ∉ folder.toList then '\\' else '/'

/-- `root_folder_prefix`, as characters. -/
def rootFolderPrefix (folder : String) : List Char :=
  let sep := folderSeparator folder
  if [sep].isSuffixOf folder.toList then folder.toList else folder.toList ++ [sep]

/-- `_root_folder_fragment`: a null path is unknown in both arms. -/
def rootFolderFragment (path : Option String) (folders : List String) : Truth :=
  (Truth.onColumn path fun p => decide (p ∈ folders)).or
    (.existsRow folders fun folder =>
      .onColumn path fun p => (rootFolderPrefix folder).isPrefixOf p.toList)

/-- `_series_scope_fragments`, without the join of the dub gate. -/
def seriesScopeFragments (scope : RuleScope) (tagIds : List Int) (s : SeriesCols) : List Truth :=
  (if scope.monitoredOnly then [.ofBool s.monitored] else []) ++
  (if scope.animeOnly then [.ofBool (lower.column s.payload.seriesType = "anime")] else []) ++
  ((truthyText scope.seriesType).elim [] fun wanted =>
    [.ofBool (lower.column s.payload.seriesType = lower.python wanted)]) ++
  (if scope.seriesStatusAny ≠ [] then [.ofBool (lower.column s.status ∈ scope.seriesStatusAny)]
    else []) ++
  (if scope.genresAny ≠ [] then [jsonbTextAny lower s.genres scope.genresAny] else []) ++
  (if scope.tagsAny ≠ [] then [tagFragment s.payload.tags tagIds] else []) ++
  (if scope.rootFoldersAny ≠ [] then [rootFolderFragment s.path scope.rootFoldersAny] else [])

/-- `_episode_scope_fragments`: which episodes count at all. -/
def episodeScopeFragments (scope : RuleScope) (now : Int) (e : SoftRow EpisodeCols) : List Truth :=
  [.ofBool !e.deleted, .ofBool e.cols.airDate.isSome, .onColumn e.cols.airDate fun d => d ≤ now] ++
  (if scope.monitoredOnly && !scope.includeUnmonitoredEpisodes then [.ofBool e.cols.monitored]
    else []) ++
  (if scope.includeSpecials then [] else [.ofBool (decide (0 < e.cols.seasonNumber))])

/-- `_MOVIE_ANIME_SCOPE`: linked from MAL, or of that genre. -/
def movieAnimeScope (mal : MalTables) (inst : String) (sourceId : Int) (m : MovieCols) : Truth :=
  (Truth.existsRow mal.warehouseLink.rows.entries fun link =>
    .ofBool (link.1.arrEntity = .radarrMovie && link.1.instanceName = inst &&
      link.2 = sourceId)).or
    (.existsRow m.payload.genres fun genre => .ofBool (lower.sql genre = "anime"))

/-- The scope conditions of the movie query. -/
def movieScopeFragments (scope : RuleScope) (mal : MalTables) (tagIds : List Int) (key : RowKey)
    (m : MovieCols) : List Truth :=
  (if scope.monitoredOnly then [.ofBool m.monitored] else []) ++
  (if scope.animeOnly then [movieAnimeScope lower mal key.instanceName key.sourceId m] else []) ++
  (if scope.genresAny ≠ [] then [jsonbTextAny lower m.payload.genres scope.genresAny] else []) ++
  (if scope.tagsAny ≠ [] then [tagFragment m.payload.tags tagIds] else []) ++
  (if scope.rootFoldersAny ≠ [] then [rootFolderFragment m.path scope.rootFoldersAny] else [])

end Fragments

/-- `EPISODE_FILE_JOIN_ON`. -/
def episodeFileOn (key : RowKey) (e : EpisodeCols) (fileKey : RowKey)
    (file : SoftRow EpisodeFileCols) : Truth :=
  .all [.ofBool (fileKey.instanceName = key.instanceName), .ofBool !file.deleted,
    (Truth.onColumn e.episodeFileId fun fid => fileKey.sourceId = fid).or
      ((Truth.ofBool e.episodeFileId.isNone).and
        (.ofBool (file.cols.episodeSourceId = key.sourceId)))]

/-- `mf.movie_source_id = m.source_id and … and not mf.deleted`. -/
def movieFileOn (key : RowKey) (fileKey : RowKey) (file : SoftRow MovieFileCols) : Truth :=
  .all [.ofBool (file.cols.movieSourceId = key.sourceId),
    .ofBool (fileKey.instanceName = key.instanceName), .ofBool !file.deleted]

/-- The files an episode row is joined with. -/
def episodeFiles (w : Warehouse) (key : RowKey) (e : EpisodeCols) : List (Option MediaCols) :=
  (leftJoin w.episodeFile.rows.entries fun file => episodeFileOn key e file.1 file.2).map
    fun joined => joined.map fun file => file.2.cols.media

/-- The files a movie row is joined with. -/
def movieFiles (w : Warehouse) (key : RowKey) : List (Option MediaCols) :=
  (leftJoin w.movieFile.rows.entries fun file => movieFileOn key file.1 file.2).map
    fun joined => joined.map fun file => file.2.cols.media

/-- The rows a gated query joins an item with: with the gate off, one row of
nulls; with it on, the item's dub, or no row. -/
def gateRows (options : RuleOptions) (mal : MalTables) (arrEntity : ArrEntity) (key : RowKey) :
    List (Option DubRow) :=
  if options.malDubGate then
    (dubGate mal arrEntity key.instanceName key.sourceId).toList.map some
  else
    [none]

/-! ## Rows and queries -/

/-- A row of a candidate query.  A column that the query does not select is
`none`; `file` holds the five columns read off the joined file. -/
structure CandidateRow where
  sourceId : Int
  title : String
  seriesSourceId : Option Int := none
  seasonNumber : Option Int := none
  episodeNumber : Option Int := none
  seriesTitle : Option String := none
  status : Option String := none
  episodeCount : Option ℕ := none
  hasFile : Option Bool := none
  file : Option MediaCols := none
  dub : Option DubRow := none
deriving DecidableEq, Repr

/-- A row with the ledger columns it was joined with. -/
structure LedgeredRow where
  row : CandidateRow
  lastFiredAt : Option Int
deriving DecidableEq, Repr

/-- `order by lg.last_fired_at asc nulls first, source_id`; without the ledger
join the first key is null throughout. -/
def candidateOrder (a b : LedgeredRow) : Prop :=
  match a.lastFiredAt, b.lastFiredAt with
  | none, some _ => True
  | some _, none => False
  | none, none => a.row.sourceId ≤ b.row.sourceId
  | some s, some t => s < t ∨ (s = t ∧ a.row.sourceId ≤ b.row.sourceId)

instance (a b : LedgeredRow) : Decidable (candidateOrder a b) := by
  unfold candidateOrder
  split <;> infer_instance

/-- The cooldown clause. -/
def pastCooldown (binds : QueryBinds) (lastFiredAt : Option Int) : Truth :=
  (Truth.ofBool lastFiredAt.isNone).or
    (.onColumn lastFiredAt fun fired => fired < binds.now - binds.cooldownDays * daySeconds)

/-- `CompiledQuery`: `all` are the rows of `count_all_sql`, `eligible` those of
`count_sql`, in no particular order. -/
structure CompiledQuery where
  all : List LedgeredRow
  eligible : List LedgeredRow

namespace CompiledQuery

/-- The rows in the order of `select_sql`. -/
def ordered (q : CompiledQuery) : List CandidateRow :=
  (q.eligible.insertionSort candidateOrder).map LedgeredRow.row

/-- `select_sql` with its limit. -/
def select (q : CompiledQuery) (limit : ℕ) : List CandidateRow := q.ordered.take limit

theorem mem_ordered {q : CompiledQuery} {row : CandidateRow} :
    row ∈ q.ordered ↔ ∃ fired, ⟨row, fired⟩ ∈ q.eligible := by
  unfold ordered
  rw [List.mem_map]
  constructor
  · rintro ⟨⟨r, fired⟩, hmem, rfl⟩
    exact ⟨fired, (List.mem_insertionSort candidateOrder).mp hmem⟩
  · rintro ⟨fired, hmem⟩
    exact ⟨⟨row, fired⟩, (List.mem_insertionSort candidateOrder).mpr hmem, rfl⟩

theorem mem_of_mem_select {q : CompiledQuery} {limit : ℕ} {row : CandidateRow}
    (h : row ∈ q.select limit) : row ∈ q.ordered := List.mem_of_mem_take h

theorem length_select_le {q : CompiledQuery} {limit : ℕ} : (q.select limit).length ≤ limit :=
  List.length_take_le limit q.ordered

end CompiledQuery

/-- A row before the ledger join, with the conditions it is selected on. -/
structure JoinedRow where
  row : CandidateRow
  conditions : List Truth

/-- `conforming`, or the branches of the non-conforming sense. -/
def senseCondition (lower : Lowering) (params : RuleParams) (sense : Sense) (hasFile : Option Bool)
    (file : Option MediaCols) : Truth :=
  match sense with
  | .conforming => conformingRow lower params.require hasFile file
  | .nonConforming =>
      let branches :=
        (if params.wantsMissing then [(Truth.ofBool (hasFile.getD false)).not] else []) ++
        (if params.wantsUpgrade then
          [(Truth.ofBool file.isSome).and
            (Truth.all (requireFragments lower params.require file)).not] else [])
      if branches = [] then (conformingRow lower params.require hasFile file).not else .any branches

/-- The movie query before its ledger join. -/
def movieJoins (params : RuleParams) (sense : Sense) (c : Catalog) (binds : QueryBinds) :
    List JoinedRow :=
  c.warehouse.movie.rows.entries.flatMap fun ⟨key, m⟩ =>
    (movieFiles c.warehouse key).flatMap fun file =>
      (gateRows params.options c.mal .radarrMovie key).map fun dub =>
        { row :=
            { sourceId := key.sourceId, title := m.cols.title
              hasFile := some (m.cols.payload.hasFile.getD false), file := file, dub := dub }
          conditions :=
            [Truth.ofBool !m.deleted, .ofBool (key.instanceName = binds.instanceName)] ++
              movieScopeFragments c.lower params.scope c.mal binds.tagIds key m.cols ++
              [senseCondition c.lower params sense m.cols.payload.hasFile file] }

/-- The live series an episode row is joined with. -/
def joinedSeries (w : Warehouse) (key : RowKey) (e : EpisodeCols) : Option SeriesCols :=
  ((w.series.row ⟨e.seriesSourceId, key.instanceName⟩).filter fun s => !s.deleted).map
    SoftRow.cols

/-- The failing-episode query before its ledger join. -/
def episodeJoins (params : RuleParams) (c : Catalog) (binds : QueryBinds) : List JoinedRow :=
  c.warehouse.episode.rows.entries.flatMap fun ⟨key, e⟩ =>
    (joinedSeries c.warehouse key e.cols).toList.flatMap fun s =>
      (episodeFiles c.warehouse key e.cols).flatMap fun file =>
        (gateRows params.options c.mal .sonarrSeries
            ⟨e.cols.seriesSourceId, key.instanceName⟩).map fun dub =>
          { row :=
              { sourceId := key.sourceId, title := e.cols.title
                seriesSourceId := some e.cols.seriesSourceId
                seasonNumber := some e.cols.seasonNumber
                episodeNumber := some e.cols.episodeNumber, seriesTitle := some s.title
                hasFile := some (e.cols.payload.hasFile.getD false), file := file, dub := dub }
            conditions :=
              episodeScopeFragments params.scope binds.now e ++
                [Truth.ofBool (key.instanceName = binds.instanceName)] ++
                seriesScopeFragments c.lower params.scope binds.tagIds s ++
                [senseCondition c.lower params .nonConforming e.cols.payload.hasFile file] }

/-- `in_scope` of the completeness query: an episode of the series that
counts. -/
def episodeInScope (scope : RuleScope) (now : Int) (seriesKey key : RowKey)
    (e : SoftRow EpisodeCols) : Truth :=
  .all (.ofBool (e.cols.seriesSourceId = seriesKey.sourceId) ::
    .ofBool (key.instanceName = seriesKey.instanceName) :: episodeScopeFragments scope now e)

/-- `_compile_complete_series`. -/
def completeSeriesJoins (params : RuleParams) (c : Catalog) (binds : QueryBinds) :
    List JoinedRow :=
  c.warehouse.series.rows.entries.flatMap fun ⟨key, s⟩ =>
    (gateRows params.options c.mal .sonarrSeries key).map fun _ =>
      { row :=
          { sourceId := key.sourceId, title := s.cols.title, status := s.cols.status
            episodeCount := some (c.warehouse.episode.countWhere fun ek e =>
              decide (episodeInScope params.scope binds.now key ek e).Holds) }
        conditions :=
          [Truth.ofBool !s.deleted, .ofBool (key.instanceName = binds.instanceName)] ++
            seriesScopeFragments c.lower params.scope binds.tagIds s.cols ++
            [.existsRow c.warehouse.episode.rows.entries fun e =>
                episodeInScope params.scope binds.now key e.1 e.2,
              (Truth.existsRow c.warehouse.episode.rows.entries fun e =>
                .existsRow (episodeFiles c.warehouse e.1 e.2.cols) fun file =>
                  (episodeInScope params.scope binds.now key e.1 e.2).and
                    (conformingRow c.lower params.require e.2.cols.payload.hasFile file).not).not] }

/-- The rows of a query that its `where` keeps. -/
def whereHolds (joins : List JoinedRow) : List CandidateRow :=
  (joins.filter fun joined => decide (Truth.all joined.conditions).Holds).map JoinedRow.row

/-- The rows of `count_all_sql`, before the ledger join. -/
def baseRows (params : RuleParams) (entity : Entity) (sense : Sense) (c : Catalog)
    (binds : QueryBinds) : List CandidateRow :=
  match entity, sense with
  | .movie, sense => whereHolds (movieJoins params sense c binds)
  | .episode, .nonConforming => whereHolds (episodeJoins params c binds)
  | .episode, .conforming => whereHolds (completeSeriesJoins params c binds)

/-- The ledger join: only a rule with a search action has one, and the
completeness query never. -/
def ledgerTime (params : RuleParams) (entity : Entity) (sense : Sense) (ledger : ActionLedger)
    (inst : String) (row : CandidateRow) : Option Int :=
  if params.hasSearch = true ∧ ¬ (entity = .episode ∧ sense = .conforming) then
    (ledger.row ⟨inst, entity, row.sourceId⟩).map LedgerRow.lastFiredAt
  else
    none

/-- `compile_candidates`.  Only the non-conforming query of a rule with a
search action has a cooldown. -/
def compileCandidates (params : RuleParams) (entity : Entity) (sense : Sense) (c : Catalog)
    (ledger : ActionLedger) (binds : QueryBinds) : CompiledQuery :=
  let all := (baseRows params entity sense c binds).map fun row =>
    (⟨row, ledgerTime params entity sense ledger binds.instanceName row⟩ : LedgeredRow)
  { all := all
    eligible :=
      if params.hasSearch = true ∧ sense = .nonConforming then
        all.filter fun r => decide (pastCooldown binds r.lastFiredAt).Holds
      else all }

/-- `_target_ids`: the items to act on.  A failing episode stands for its
series; every other row stands for itself. -/
def targetIds (entity : Entity) (sense : Sense) (rows : List CandidateRow) : List Int :=
  if entity = .movie ∨ sense = .conforming then rows.map CandidateRow.sourceId
  else rows.filterMap CandidateRow.seriesSourceId

/-! ## Rows of a query -/

theorem mem_whereHolds {joins : List JoinedRow} {row : CandidateRow} :
    row ∈ whereHolds joins ↔
      ∃ joined ∈ joins, (∀ c ∈ joined.conditions, c.Holds) ∧ joined.row = row := by
  simp [whereHolds, and_assoc]

/-- **What a compiled query returns**: the rows of its `where`, past their
cooldown if there is one. -/
theorem mem_ordered_iff {params : RuleParams} {entity : Entity} {sense : Sense} {c : Catalog}
    {ledger : ActionLedger} {binds : QueryBinds} {row : CandidateRow} :
    row ∈ (compileCandidates params entity sense c ledger binds).ordered ↔
      row ∈ baseRows params entity sense c binds ∧
        (params.hasSearch = true → sense = .nonConforming →
          (pastCooldown binds
            (ledgerTime params entity sense ledger binds.instanceName row)).Holds) := by
  rw [CompiledQuery.mem_ordered]
  by_cases hcool : params.hasSearch = true ∧ sense = .nonConforming
  · simp [compileCandidates, hcool]
  · have hfree : params.hasSearch = true → sense = .nonConforming → False :=
      fun hsearch hsense => hcool ⟨hsearch, hsense⟩
    simp only [compileCandidates, if_neg hcool, List.mem_map, LedgeredRow.mk.injEq]
    constructor
    · rintro ⟨fired, r, hr, rfl, -⟩
      exact ⟨hr, fun hsearch hsense => absurd (hfree hsearch hsense) id⟩
    · rintro ⟨hr, -⟩
      exact ⟨_, row, hr, rfl, rfl⟩

/-- Without a search action a query returns what its `where` keeps. -/
theorem mem_ordered_of_searchless {params : RuleParams} (h : params.hasSearch = false)
    {entity : Entity} {sense : Sense} {c : Catalog} {ledger : ActionLedger} {binds : QueryBinds}
    {row : CandidateRow} :
    row ∈ (compileCandidates params entity sense c ledger binds).ordered ↔
      row ∈ baseRows params entity sense c binds := by
  simp [mem_ordered_iff, h]

/-- A conforming query returns what its `where` keeps. -/
theorem mem_ordered_conforming {params : RuleParams} {entity : Entity} {c : Catalog}
    {ledger : ActionLedger} {binds : QueryBinds} {row : CandidateRow} :
    row ∈ (compileCandidates params entity .conforming c ledger binds).ordered ↔
      row ∈ baseRows params entity .conforming c binds := by
  simp [mem_ordered_iff]

theorem mem_gateRows {options : RuleOptions} {mal : MalTables} {arrEntity : ArrEntity}
    (key : RowKey) : (∃ dub, dub ∈ gateRows options mal arrEntity key) ↔
      (options.malDubGate = true →
        (dubGate mal arrEntity key.instanceName key.sourceId).isSome = true) := by
  unfold gateRows
  by_cases hgate : options.malDubGate = true
  · cases hdub : dubGate mal arrEntity key.instanceName key.sourceId <;> simp [hgate]
  · simp [hgate]

/-! ## The queries, row by row -/

section Specs

variable {params : RuleParams} {c : Catalog} {binds : QueryBinds} {row : CandidateRow}

/-- **The movie query**: a live movie in scope, one of its files and its dub. -/
theorem mem_movieRows_iff {sense : Sense} :
    row ∈ whereHolds (movieJoins params sense c binds) ↔
      ∃ mid m file dub,
        c.warehouse.movie.row ⟨mid, binds.instanceName⟩ = some m ∧ m.deleted = false ∧
        (∀ f ∈ movieScopeFragments c.lower params.scope c.mal binds.tagIds ⟨mid, binds.instanceName⟩
          m.cols, f.Holds) ∧
        file ∈ movieFiles c.warehouse ⟨mid, binds.instanceName⟩ ∧
        dub ∈ gateRows params.options c.mal .radarrMovie ⟨mid, binds.instanceName⟩ ∧
        (senseCondition c.lower params sense m.cols.payload.hasFile file).Holds ∧
        row =
          { sourceId := mid, title := m.cols.title
            hasFile := some (m.cols.payload.hasFile.getD false), file := file, dub := dub } := by
  rw [mem_whereHolds]
  constructor
  · rintro ⟨joined, hjoined, hall, rfl⟩
    obtain ⟨⟨⟨mid, inst⟩, m⟩, hm, hjoined⟩ := List.mem_flatMap.mp hjoined
    obtain ⟨file, hfile, hjoined⟩ := List.mem_flatMap.mp hjoined
    obtain ⟨dub, hdub, rfl⟩ := List.mem_map.mp hjoined
    have hlive : m.deleted = false := by
      simpa using hall (.ofBool !m.deleted) (by simp)
    obtain rfl : inst = binds.instanceName := by
      simpa using hall (.ofBool (inst = binds.instanceName)) (by simp)
    refine ⟨mid, m, file, dub, KeyedTable.row_eq_some_iff.mpr hm, hlive, fun f hf => ?_, hfile,
      hdub, hall _ (by simp), rfl⟩
    exact hall f (by simp [hf])
  · rintro ⟨mid, m, file, dub, hm, hlive, hscope, hfile, hdub, hsense, rfl⟩
    refine ⟨_, List.mem_flatMap.mpr ⟨⟨⟨mid, binds.instanceName⟩, m⟩,
      KeyedTable.row_eq_some_iff.mp hm,
      List.mem_flatMap.mpr ⟨file, hfile, List.mem_map.mpr ⟨dub, hdub, rfl⟩⟩⟩, fun f hf => ?_, rfl⟩
    simp only [List.mem_append, List.mem_cons, List.not_mem_nil, or_false] at hf
    rcases hf with ((rfl | rfl) | hf) | rfl
    · simp [hlive]
    · simp
    · exact hscope f hf
    · exact hsense

/-- **The failing-episode query**: an episode that counts, its live series in
scope, one of its files and the dub of the series. -/
theorem mem_episodeRows_iff :
    row ∈ whereHolds (episodeJoins params c binds) ↔
      ∃ eid e s file dub,
        c.warehouse.episode.row ⟨eid, binds.instanceName⟩ = some e ∧
        joinedSeries c.warehouse ⟨eid, binds.instanceName⟩ e.cols = some s ∧
        (∀ f ∈ episodeScopeFragments params.scope binds.now e, f.Holds) ∧
        (∀ f ∈ seriesScopeFragments c.lower params.scope binds.tagIds s, f.Holds) ∧
        file ∈ episodeFiles c.warehouse ⟨eid, binds.instanceName⟩ e.cols ∧
        dub ∈ gateRows params.options c.mal .sonarrSeries
          ⟨e.cols.seriesSourceId, binds.instanceName⟩ ∧
        (senseCondition c.lower params .nonConforming e.cols.payload.hasFile file).Holds ∧
        row =
          { sourceId := eid, title := e.cols.title
            seriesSourceId := some e.cols.seriesSourceId
            seasonNumber := some e.cols.seasonNumber
            episodeNumber := some e.cols.episodeNumber, seriesTitle := some s.title
            hasFile := some (e.cols.payload.hasFile.getD false), file := file, dub := dub } := by
  rw [mem_whereHolds]
  constructor
  · rintro ⟨joined, hjoined, hall, rfl⟩
    obtain ⟨⟨⟨eid, inst⟩, e⟩, he, hjoined⟩ := List.mem_flatMap.mp hjoined
    obtain ⟨s, hs, hjoined⟩ := List.mem_flatMap.mp hjoined
    obtain ⟨file, hfile, hjoined⟩ := List.mem_flatMap.mp hjoined
    obtain ⟨dub, hdub, rfl⟩ := List.mem_map.mp hjoined
    obtain rfl : inst = binds.instanceName := by
      simpa using hall (.ofBool (inst = binds.instanceName)) (by simp)
    refine ⟨eid, e, s, file, dub, KeyedTable.row_eq_some_iff.mpr he, Option.mem_toList.mp hs,
      fun f hf => ?_, fun f hf => ?_, hfile, hdub, hall _ (by simp), rfl⟩
    · exact hall f (by simp [hf])
    · exact hall f (by simp [hf])
  · rintro ⟨eid, e, s, file, dub, he, hs, hepisode, hseries, hfile, hdub, hsense, rfl⟩
    refine ⟨_, List.mem_flatMap.mpr ⟨⟨⟨eid, binds.instanceName⟩, e⟩,
      KeyedTable.row_eq_some_iff.mp he, List.mem_flatMap.mpr ⟨s, Option.mem_toList.mpr hs,
        List.mem_flatMap.mpr ⟨file, hfile, List.mem_map.mpr ⟨dub, hdub, rfl⟩⟩⟩⟩,
      fun f hf => ?_, rfl⟩
    simp only [List.mem_append, List.mem_cons, List.not_mem_nil, or_false] at hf
    rcases hf with ((hf | rfl) | hf) | rfl
    · exact hepisode f hf
    · simp
    · exact hseries f hf
    · exact hsense

end Specs

end Nebularr
