import Nebularr.DubLists

/-!
# The union of the last good lists

After every union step the flags of an anime are those computed from the last
list of each enabled source that was persisted or found unchanged.  Between
runs, `ListsOnFile` says what the tables hold: the membership rows of a source
are its last good list, whatever became of the fetches since, and the newest
fetch on file of a source has the digest of a body that reads as that list.
Pruning keeps the newest fetch, so the digest a run compares with is always
the one of the list on file.
-/

namespace Nebularr

/-! ## What the lists say -/

/-- The bucket in which a list names an anime; an id in both is dubbed. -/
def DubList.status (list : DubList) (malId : Int) : Option DubStatus :=
  if malId ∈ list.dubbedIds then some .dubbed
  else if malId ∈ list.partialIds then some .partlyDubbed
  else none

/-- The flags of an anime that sources list in these buckets. -/
def flagsOfBuckets (buckets : List DubStatus) : DubFlags where
  isEnglishDubbed := decide (buckets ≠ [])
  dubStatus :=
    if buckets = [] then .noDub
    else if .dubbed ∈ buckets then .dubbed
    else .partlyDubbed
  dubSourceCount := buckets.length

/-- The flags of an anime, computed from the lists of the enabled sources. -/
def unionFlags (lists : DubSource → Option DubList) (enabled : List DubSource) (malId : Int) :
    DubFlags :=
  flagsOfBuckets (enabled.filterMap fun source => (lists source).bind fun list => list.status malId)

/-- The list of a turn that persisted it or found it unchanged. -/
def SourceResult.list? : SourceResult → Option DubList
  | .unchanged list => some list
  | .persisted list _ _ => some list
  | _ => none

/-- The last good list of a source. -/
def lastGoodList (reports : List (DubSource × SourceResult)) (source : DubSource) :
    Option DubList :=
  (reports.filterMap fun r => if r.1 = source then r.2.list? else none).getLast?

/-- A further turn counts for its own source, if its list was good. -/
theorem lastGoodList_concat (reports : List (DubSource × SourceResult)) (source : DubSource)
    (result : SourceResult) (source' : DubSource) :
    lastGoodList (reports ++ [(source, result)]) source' =
      if source = source' then result.list?.or (lastGoodList reports source')
      else lastGoodList reports source' := by
  unfold lastGoodList
  rw [List.filterMap_append, List.getLast?_append]
  by_cases h : source = source'
  · cases hlist : result.list? <;> simp [h, hlist]
  · simp [h]

/-! ## The union over the rows on file -/

/-- The bucket on file for an anime and a source. -/
def bucketOnFile (t : DubTables) (malId : Int) (source : DubSource) : Option DubStatus :=
  (t.animeDubSource.row (malId, source)).map DubSourceRow.status

/-- The group of an anime holds what its enabled sources have on file. -/
theorem dubGroup_perm (t : DubTables) {enabled : List DubSource} (henabled : enabled.Nodup)
    (malId : Int) :
    ((dubGroup t enabled malId).map DubSourceRow.status).Perm
      (enabled.filterMap (bucketOnFile t malId)) := by
  have hinj : Function.Injective fun source : DubSource => (malId, source) :=
    fun _ _ h => congrArg Prod.snd h
  have hperm := t.animeDubSource.selectWhere_perm (henabled.map hinj)
    (p := fun key _ => decide (key.1 = malId) && decide (key.2 ∈ enabled)) (by
      rintro ⟨malId', source⟩ r - hp
      simp only [Bool.and_eq_true, decide_eq_true_eq] at hp
      exact List.mem_map.mpr ⟨source, hp.2, by rw [← hp.1]⟩)
  have hstatus := (hperm.map Prod.snd).map DubSourceRow.status
  rw [dubGroup]
  refine hstatus.trans (List.Perm.of_eq ?_)
  rw [List.filterMap_map, List.map_filterMap, List.map_filterMap]
  refine List.filterMap_congr ?_
  intro source hsource
  simp only [Function.comp, bucketOnFile]
  cases t.animeDubSource.row (malId, source) <;> simp [hsource]

theorem flagsOfBuckets_perm {buckets buckets' : List DubStatus} (h : buckets.Perm buckets') :
    flagsOfBuckets buckets = flagsOfBuckets buckets' := by
  have hnil : buckets = [] ↔ buckets' = [] := by
    rw [← List.length_eq_zero_iff, h.length_eq, List.length_eq_zero_iff]
  simp only [flagsOfBuckets, ne_eq, hnil, h.mem_iff, h.length_eq]

/-- What `agg` derives is what the buckets of the group say. -/
theorem flagsOfAgg_dubAgg (t : DubTables) (enabled : List DubSource) (malId : Int) :
    flagsOfAgg (dubAgg t enabled malId) =
      flagsOfBuckets ((dubGroup t enabled malId).map DubSourceRow.status) := by
  unfold dubAgg
  cases hgroup : dubGroup t enabled malId with
  | nil => rfl
  | cons first rest =>
      have hany : ((first :: rest).any fun r => decide (r.status = .dubbed)) = true ↔
          DubStatus.dubbed ∈ (first :: rest).map DubSourceRow.status := by
        rw [List.any_eq_true, List.mem_map]
        simp
      simp only [flagsOfAgg, flagsOfBuckets, hany, List.length_map]
      rfl

/-- **The union step.**  It leaves every anime on file with the flags of the
enabled sources' buckets. -/
theorem row_recomputeDubUnion (t : DubTables) {enabled : List DubSource}
    (henabled : enabled.Nodup) (malId : Int) :
    (recomputeDubUnion t enabled).1.anime.row malId =
      (t.anime.row malId).map fun _ =>
        flagsOfBuckets (enabled.filterMap (bucketOnFile t malId)) := by
  have hderived : flagsOfAgg (dubAgg t enabled malId) =
      flagsOfBuckets (enabled.filterMap (bucketOnFile t malId)) := by
    rw [flagsOfAgg_dubAgg]
    exact flagsOfBuckets_perm (dubGroup_perm t henabled malId)
  rw [recomputeDubUnion, KeyedTable.row_mapRows, hderived]
  congr 1
  funext flags
  split
  · rfl
  · next hsame => exact not_not.mp hsame

/-! ## Replacing the rows of a source -/

@[simp] theorem mem_sortedIds {ids : List Int} {id : Int} : id ∈ sortedIds ids ↔ id ∈ ids := by
  rw [sortedIds, List.mem_insertionSort, List.mem_dedup]

/-- Adding bare rows keeps the rows on file. -/
theorem row_addBare (ids : List Int) (anime : KeyedTable Int DubFlags) (malId : Int) :
    (ids.foldl (fun anime malId => anime.upsert malId {} id) anime).row malId =
      (anime.row malId).or (if malId ∈ ids then some {} else none) := by
  induction ids generalizing anime with
  | nil => cases h : anime.row malId <;> rw [List.foldl_nil, h] <;> rfl
  | cons first rest ih =>
      rw [List.foldl_cons, ih, KeyedTable.row_upsert]
      by_cases h : malId = first
      · subst h
        cases anime.row malId <;> simp
      · simp [h]

/-- The rows of one bucket. -/
theorem row_listBucket (fetchId : Nat) (source : DubSource) (ids : List Int) (status : DubStatus)
    (t : DubTables) (malId : Int) (source' : DubSource) :
    (listBucket fetchId source ids status t).animeDubSource.row (malId, source') =
      (if source' = source ∧ malId ∈ ids then some ⟨status, some fetchId⟩ else none).or
        (t.animeDubSource.row (malId, source')) := by
  refine KeyedTable.row_putEach ?_ t.animeDubSource
  intro r
  rw [List.mem_map]
  constructor
  · rintro ⟨id, hid, heq⟩
    obtain ⟨⟨rfl, rfl⟩, rfl⟩ : (id = malId ∧ source = source') ∧ _ = r := by
      simpa only [Prod.mk.injEq] using heq
    rw [if_pos ⟨rfl, hid⟩]
  · intro h
    split at h
    · next hin =>
        obtain rfl := Option.some.inj h
        exact ⟨malId, hin.2, by rw [hin.1]⟩
    · cases h

variable {t t' : DubTables} {fetchId removed : Nat} {source : DubSource} {list : DubList}

/-- What a replacement that did not raise leaves. -/
theorem tables_upsertDubSourceSnapshot
    (h : upsertDubSourceSnapshot fetchId source list t = some (t', removed)) :
    let dubbed := sortedIds list.dubbedIds
    let partials := sortedIds (list.partialIds.filter fun id => id ∉ list.dubbedIds)
    let listed := listBucket fetchId source partials .partlyDubbed
      (listBucket fetchId source dubbed .dubbed t)
    t' = { listed with
      animeDubSource := listed.animeDubSource.deleteWhere fun key _ =>
        decide (key.2 = source) && decide (key.1 ∉ dubbed ++ partials) } := by
  unfold upsertDubSourceSnapshot at h
  dsimp only at h
  split at h
  · exact (Prod.mk.inj (Option.some.inj h)).1.symm
  · cases h

/-- **Replacing a source's rows** leaves it the buckets of the list, and every
other source its own. -/
theorem bucketOnFile_upsertDubSourceSnapshot
    (h : upsertDubSourceSnapshot fetchId source list t = some (t', removed)) (malId : Int)
    (source' : DubSource) :
    bucketOnFile t' malId source' =
      if source' = source then list.status malId else bucketOnFile t malId source' := by
  rw [tables_upsertDubSourceSnapshot h]
  simp only [bucketOnFile, KeyedTable.row_deleteWhere, row_listBucket, List.mem_append,
    mem_sortedIds, List.mem_filter]
  by_cases hsource : source' = source
  · subst hsource
    by_cases hdubbed : malId ∈ list.dubbedIds
    · simp [hdubbed, DubList.status]
    · by_cases hpartial : malId ∈ list.partialIds
      · simp [hdubbed, hpartial, DubList.status]
      · cases t.animeDubSource.row (malId, source') <;>
          simp [hdubbed, hpartial, DubList.status]
  · cases t.animeDubSource.row (malId, source') <;> simp [hsource]

/-- The anime a source lists are on file, and none is lost. -/
theorem anime_upsertDubSourceSnapshot
    (h : upsertDubSourceSnapshot fetchId source list t = some (t', removed)) {malId : Int}
    (hlisted : (t.anime.row malId).isSome = true ∨ (list.status malId).isSome = true) :
    (t'.anime.row malId).isSome = true := by
  rw [tables_upsertDubSourceSnapshot h]
  simp only [listBucket]
  rw [row_addBare, row_addBare, Option.isSome_or, Option.isSome_or]
  simp only [mem_sortedIds, List.mem_filter]
  unfold DubList.status at hlisted
  by_cases hdubbed : malId ∈ list.dubbedIds
  · simp [hdubbed]
  · by_cases hpartial : malId ∈ list.partialIds
    · simp [hdubbed, hpartial]
    · simpa [hdubbed, hpartial] using hlisted

/-- The list of fetches is not touched. -/
theorem fetches_upsertDubSourceSnapshot
    (h : upsertDubSourceSnapshot fetchId source list t = some (t', removed)) :
    t'.dubListFetch = t.dubListFetch ∧ t'.lastFetchSeq = t.lastFetchSeq := by
  rw [tables_upsertDubSourceSnapshot h]
  exact ⟨rfl, rfl⟩

/-! ## The newest fetch of a source -/

/-- The fetch of a source with the greatest id. -/
structure NewestFetch (t : DubTables) (source : DubSource) (id : Nat) (r : DubListFetchRow) :
    Prop where
  onFile : t.dubListFetch.row id = some r
  ofSource : r.sourceName = source
  newest : ∀ id' r', t.dubListFetch.row id' = some r' → r'.sourceName = source → id' ≤ id

/-- A source with a fetch on file has a newest one. -/
theorem exists_newestFetch {id : Nat} {r : DubListFetchRow}
    (hrow : t.dubListFetch.row id = some r) (hsource : r.sourceName = source) :
    ∃ id' r', NewestFetch t source id' r' := by
  have hmem : (id, r) ∈ t.dubListFetch.selectWhere fun _ r => decide (r.sourceName = source) :=
    KeyedTable.mem_selectWhere_iff.mpr ⟨hrow, decide_eq_true hsource⟩
  cases hmax : (t.dubListFetch.selectWhere fun _ r =>
      decide (r.sourceName = source)).argmax Prod.fst with
  | none => exact absurd hmem (by rw [List.argmax_eq_none.mp hmax]; exact List.not_mem_nil)
  | some newest =>
      obtain ⟨hon, hof⟩ := KeyedTable.mem_selectWhere_iff.mp (List.argmax_mem hmax)
      refine ⟨newest.1, newest.2, hon, of_decide_eq_true hof, ?_⟩
      intro id' r' hrow' hsource'
      exact List.le_of_mem_argmax
        (KeyedTable.mem_selectWhere_iff.mpr ⟨hrow', decide_eq_true hsource'⟩) hmax

/-- Where every fetch on file succeeded, the digest a run compares with is the
newest fetch's. -/
theorem newestFetch_of_latestDubListSha {sha : String}
    (hgood : ∀ id r, t.dubListFetch.row id = some r → r.succeeded = true)
    (h : latestDubListSha t source = some sha) :
    ∃ id r, NewestFetch t source id r ∧ r.contentSha256 = sha := by
  obtain ⟨hsha, -⟩ := Option.filter_eq_some_iff.mp h
  obtain ⟨newest, hmax, rfl⟩ := Option.map_eq_some_iff.mp hsha
  obtain ⟨hon, hof⟩ := KeyedTable.mem_selectWhere_iff.mp (List.argmax_mem hmax)
  rw [Bool.and_eq_true, decide_eq_true_eq] at hof
  refine ⟨newest.1, newest.2, ⟨hon, hof.2, ?_⟩, rfl⟩
  intro id' r' hrow' hsource'
  refine List.le_of_mem_argmax (KeyedTable.mem_selectWhere_iff.mpr ⟨hrow', ?_⟩) hmax
  rw [hgood id' r' hrow', decide_eq_true hsource']
  rfl

/-- **Pruning keeps the newest fetch**, whatever number it is told to keep. -/
theorem newestFetch_of_pruneDubListFetches {keep : Int} {id : Nat} {r : DubListFetchRow}
    (h : NewestFetch (pruneDubListFetches keep t) source id r) : NewestFetch t source id r := by
  have hon := h.onFile
  simp only [pruneDubListFetches, KeyedTable.row_deleteWhere, Option.filter_eq_some_iff] at hon
  obtain ⟨id', r', hnewest⟩ := exists_newestFetch hon.1 h.ofSource
  have hnone : t.dubListFetch.countWhere (fun id'' r'' =>
      decide (r''.sourceName = r'.sourceName) && decide (id' < id'')) = 0 := by
    by_contra hne
    obtain ⟨id'', r'', hrow'', hlater⟩ :=
      KeyedTable.countWhere_pos_iff.mp (Nat.pos_of_ne_zero hne)
    rw [Bool.and_eq_true, decide_eq_true_eq, decide_eq_true_eq, hnewest.ofSource] at hlater
    exact absurd (hnewest.newest id'' r'' hrow'' hlater.1) (Nat.not_le.mpr hlater.2)
  have hkept : (pruneDubListFetches keep t).dubListFetch.row id' = some r' := by
    simp only [pruneDubListFetches, KeyedTable.row_deleteWhere, Option.filter_eq_some_iff, hnone]
    refine ⟨hnewest.onFile, ?_⟩
    rw [Bool.not_eq_true', decide_eq_false_iff_not]
    omega
  have hle := h.newest id' r' hkept hnewest.ofSource
  refine ⟨hon.1, h.ofSource, ?_⟩
  intro id'' r'' hrow'' hsource''
  exact (hnewest.newest id'' r'' hrow'' hsource'').trans hle

/-! ## Histories of runs -/

section Histories

variable {Body : Type} (sha256 : Body → String) (loads : Body → Option JsonValue)

/-- What happens to the tables: ingest runs, and pruning between them. -/
inductive MalEvent (Body : Type)
  | ingest (input : MalIngestInput Body)
  | prune (keepPerSource : Int)

/-- The tables, and how the turns of all runs ended, oldest first. -/
structure MalHistory where
  tables : DubTables
  reports : List (DubSource × SourceResult)

def MalHistory.after (w : MalHistory) : MalEvent Body → MalHistory
  | .ingest input =>
      let (t', report) := ingestRun sha256 loads input w.tables
      ⟨t', w.reports ++ report.sources⟩
  | .prune keep => ⟨pruneDubListFetches keep w.tables, w.reports⟩

/-- The history of a schema that starts empty. -/
def malHistory (events : List (MalEvent Body)) : MalHistory :=
  events.foldl (fun w event => w.after sha256 loads event) ⟨DubTables.empty, []⟩

def FetchAttempt.body? : FetchAttempt Body → Option Body
  | .noResponse => none
  | .response _ body => some body

/-- The bodies that the enabled sources answer with in a run. -/
def MalIngestInput.bodies (input : MalIngestInput Body) : List Body :=
  (enabledDubSources input.flags).flatMap fun spec =>
    (input.turn spec.name).attempts.filterMap FetchAttempt.body?

def MalEvent.bodies : MalEvent Body → List Body
  | .ingest input => input.bodies
  | .prune _ => []

/-- No two of the bodies have one digest. -/
def CollisionFree (bodies : List Body) : Prop :=
  ∀ body ∈ bodies, ∀ body' ∈ bodies, sha256 body = sha256 body' → body = body'

instance [DecidableEq Body] (bodies : List Body) : Decidable (CollisionFree sha256 bodies) := by
  unfold CollisionFree
  infer_instance

/-- The list that a source's body reads as. -/
def readList (source : DubSource) (body : Body) : Option DubList :=
  (loads body).bind fun data => (parseDubSourcePayload source.spec data).toOption

/-- What the tables hold between turns: the membership rows of every source are
its last good list, of anime on file, and its newest fetch has the digest of a
body that reads as that list. -/
structure ListsOnFile (bodies : List Body) (w : MalHistory) : Prop where
  buckets : ∀ malId source, bucketOnFile w.tables malId source =
    (lastGoodList w.reports source).bind fun list => list.status malId
  listed : ∀ malId source, (bucketOnFile w.tables malId source).isSome = true →
    (w.tables.anime.row malId).isSome = true
  fetches : ∀ id r, w.tables.dubListFetch.row id = some r →
    id ≤ w.tables.lastFetchSeq ∧ r.succeeded = true
  newest : ∀ source id r, NewestFetch w.tables source id r →
    ∃ body ∈ bodies, sha256 body = r.contentSha256 ∧
      ∃ list, readList loads source body = some list ∧ lastGoodList w.reports source = some list

/-- A fetched body is one of those answered, holds the JSON and came with a
success. -/
theorem of_fetchDubList {attempts : List (FetchAttempt Body)} {body : Body} {data : JsonValue}
    {status : Nat} (h : fetchDubList loads attempts = some (body, data, status)) :
    body ∈ attempts.filterMap FetchAttempt.body? ∧ loads body = some data ∧ status < 400 := by
  induction attempts with
  | nil => cases h
  | cons attempt rest ih =>
      have hlater : ∀ {b : Body}, b ∈ rest.filterMap FetchAttempt.body? →
          b ∈ (attempt :: rest).filterMap FetchAttempt.body? := by
        intro b hb
        obtain ⟨a, ha, hbody⟩ := List.mem_filterMap.mp hb
        exact List.mem_filterMap.mpr ⟨a, List.mem_cons_of_mem _ ha, hbody⟩
      have hrest (h : fetchDubList loads rest = some (body, data, status)) :=
        (⟨hlater (ih h).1, (ih h).2⟩ : _ ∧ _)
      cases attempt with
      | noResponse => exact hrest h
      | response status' body' =>
          rw [fetchDubList] at h
          split at h
          · exact hrest h
          · split at h
            · next hok =>
                split at h
                · next data' hdata =>
                    obtain ⟨rfl, rfl, rfl⟩ :
                        body' = body ∧ data' = data ∧ status' = status := by
                      simpa only [Option.some.injEq, Prod.mk.injEq] using h
                    exact ⟨List.mem_cons_self, hdata, hok.2.trans (by decide)⟩
                · exact hrest h
            · exact hrest h

/-- **What a turn does.**  It leaves the tables as they are without a good
list, or its list is that of a body it was answered with, and either the digest
was on file or the rows of the source are replaced. -/
theorem ingestSource_cases {source : DubSource} {turn : SourceTurn Body} {t t' : DubTables}
    {result : SourceResult}
    (h : ingestSource sha256 loads source.spec turn t = (t', result)) :
    (t' = t ∧ result.list? = none) ∨
      ∃ body ∈ turn.attempts.filterMap FetchAttempt.body?, ∃ list,
        readList loads source body = some list ∧ result.list? = some list ∧
          ((t' = t ∧ latestDubListSha t source = some (sha256 body)) ∨
            ∃ row removed, row.sourceName = source ∧ row.contentSha256 = sha256 body ∧
              row.succeeded = true ∧
              upsertDubSourceSnapshot (t.lastFetchSeq + 1) source list
                (insertDubListFetch row t).1 = some (t', removed)) := by
  unfold ingestSource at h
  split at h
  · obtain ⟨rfl, rfl⟩ := Prod.mk.inj h
    exact Or.inl ⟨rfl, rfl⟩
  · split at h
    · obtain ⟨rfl, rfl⟩ := Prod.mk.inj h
      exact Or.inl ⟨rfl, rfl⟩
    · next body data status hfetch =>
        obtain ⟨hbody, hdata, hstatus⟩ := of_fetchDubList loads hfetch
        split at h
        · obtain ⟨rfl, rfl⟩ := Prod.mk.inj h
          exact Or.inl ⟨rfl, rfl⟩
        · next list hparse =>
            have hread : readList loads source body = some list := by
              rw [readList, hdata, Option.bind_some, hparse]
              rfl
            unfold persistSource at h
            rw [DubSource.name_spec] at h
            split at h
            · next hsha =>
                obtain ⟨rfl, rfl⟩ := Prod.mk.inj h
                exact Or.inr ⟨body, hbody, list, hread, rfl, Or.inl ⟨rfl, hsha⟩⟩
            · dsimp only at h
              split at h
              · next t'' removed hsnapshot =>
                  obtain ⟨rfl, rfl⟩ := Prod.mk.inj h
                  refine Or.inr ⟨body, hbody, list, hread, rfl, Or.inr ⟨_, removed, rfl, rfl, ?_,
                    hsnapshot⟩⟩
                  simpa [DubListFetchRow.succeeded] using hstatus
              · obtain ⟨rfl, rfl⟩ := Prod.mk.inj h
                exact Or.inl ⟨rfl, rfl⟩

variable {sha256 loads} {bodies : List Body} {w : MalHistory}

/-- Only the last good lists of the reports matter. -/
theorem ListsOnFile.congr {reports : List (DubSource × SourceResult)}
    (h : ListsOnFile sha256 loads bodies w)
    (hlists : ∀ source, lastGoodList reports source = lastGoodList w.reports source) :
    ListsOnFile sha256 loads bodies ⟨w.tables, reports⟩ where
  buckets := fun malId source => by rw [hlists]; exact h.buckets malId source
  listed := h.listed
  fetches := h.fetches
  newest := fun source id r hnewest => by
    obtain ⟨body, hbody, hsha, list, hread, hlast⟩ := h.newest source id r hnewest
    exact ⟨body, hbody, hsha, list, hread, (hlists source).trans hlast⟩

/-- The fetches after an insert. -/
theorem row_insertDubListFetch (row : DubListFetchRow) (t : DubTables) (id : Nat) :
    (insertDubListFetch row t).1.dubListFetch.row id =
      if id = t.lastFetchSeq + 1 then some row else t.dubListFetch.row id := by
  rw [insertDubListFetch, KeyedTable.row_upsert]
  split
  · next h =>
      subst h
      cases t.dubListFetch.row (t.lastFetchSeq + 1) <;> rfl
  · rfl

/-- A persisted list is the source's last good one, on file and newest. -/
theorem ListsOnFile.persisted (h : ListsOnFile sha256 loads bodies w) {source : DubSource}
    {body : Body} (hbody : body ∈ bodies) {list : DubList}
    (hread : readList loads source body = some list) {row : DubListFetchRow}
    (hsource : row.sourceName = source) (hsha : row.contentSha256 = sha256 body)
    (hgood : row.succeeded = true) {t' : DubTables} {removed : Nat}
    (hsnapshot : upsertDubSourceSnapshot (w.tables.lastFetchSeq + 1) source list
      (insertDubListFetch row w.tables).1 = some (t', removed))
    {result : SourceResult} (hresult : result.list? = some list) :
    ListsOnFile sha256 loads bodies ⟨t', w.reports ++ [(source, result)]⟩ := by
  obtain ⟨hfetches, hseq⟩ := fetches_upsertDubSourceSnapshot hsnapshot
  have hrow : ∀ id, t'.dubListFetch.row id =
      if id = w.tables.lastFetchSeq + 1 then some row else w.tables.dubListFetch.row id := by
    intro id
    rw [hfetches]
    exact row_insertDubListFetch row w.tables id
  have hlast : ∀ source', lastGoodList (w.reports ++ [(source, result)]) source' =
      if source = source' then some list else lastGoodList w.reports source' := by
    intro source'
    rw [lastGoodList_concat, hresult, Option.some_or]
  have hbuckets := bucketOnFile_upsertDubSourceSnapshot hsnapshot
  constructor
  · intro malId source'
    rw [hbuckets, hlast]
    by_cases hs : source' = source
    · subst hs
      simp
    · rw [if_neg hs, if_neg (Ne.symm hs)]
      exact h.buckets malId source'
  · intro malId source' hsome
    refine anime_upsertDubSourceSnapshot hsnapshot ?_
    rw [hbuckets] at hsome
    split at hsome
    · exact Or.inr hsome
    · exact Or.inl (h.listed malId source' hsome)
  · intro id r hid
    rw [hrow] at hid
    rw [hseq]
    show id ≤ w.tables.lastFetchSeq + 1 ∧ r.succeeded = true
    split at hid
    · next hnew =>
        obtain rfl := Option.some.inj hid
        exact ⟨Nat.le_of_eq hnew, hgood⟩
    · exact ⟨(h.fetches id r hid).1.trans (Nat.le_succ _), (h.fetches id r hid).2⟩
  · intro source' id r hnewest
    have hid := hnewest.onFile
    rw [hrow] at hid
    by_cases hnew : id = w.tables.lastFetchSeq + 1
    · rw [if_pos hnew] at hid
      obtain rfl := Option.some.inj hid
      obtain rfl : source = source' := hsource.symm.trans hnewest.ofSource
      exact ⟨body, hbody, hsha.symm, list, hread, by rw [hlast, if_pos rfl]⟩
    · rw [if_neg hnew] at hid
      have hne : source ≠ source' := by
        intro heq
        have hle := hnewest.newest (w.tables.lastFetchSeq + 1) row
          (by rw [hrow, if_pos rfl]) (hsource.trans heq)
        have hseq' := (h.fetches id r hid).1
        omega
      have hold : NewestFetch w.tables source' id r := by
        refine ⟨hid, hnewest.ofSource, ?_⟩
        intro id' r' hid' hsource'
        refine hnewest.newest id' r' ?_ hsource'
        have hseq' := (h.fetches id' r' hid').1
        rw [hrow, if_neg (by omega), hid']
      obtain ⟨body', hbody', hsha', list', hread', hlast'⟩ := h.newest source' id r hold
      exact ⟨body', hbody', hsha', list', hread', by rw [hlast, if_neg hne, hlast']⟩

/-- **One turn keeps the lists on file.**  A digest that is found is that of
the list on file, because no other body answered has it. -/
theorem ListsOnFile.turn (hcollision : CollisionFree sha256 bodies)
    (h : ListsOnFile sha256 loads bodies w) {source : DubSource} {turn : SourceTurn Body}
    (hbodies : ∀ body ∈ turn.attempts.filterMap FetchAttempt.body?, body ∈ bodies)
    {t' : DubTables} {result : SourceResult}
    (hturn : ingestSource sha256 loads source.spec turn w.tables = (t', result)) :
    ListsOnFile sha256 loads bodies ⟨t', w.reports ++ [(source, result)]⟩ := by
  rcases ingestSource_cases sha256 loads hturn with
    ⟨rfl, hresult⟩ | ⟨body, hbody, list, hread, hresult, ⟨rfl, hsha⟩ | hpersist⟩
  · refine h.congr fun source' => ?_
    rw [lastGoodList_concat, hresult, Option.none_or, ite_self]
  · refine h.congr fun source' => ?_
    obtain ⟨id, r, hnewest, hr⟩ :=
      newestFetch_of_latestDubListSha (fun id r hid => (h.fetches id r hid).2) hsha
    obtain ⟨body', hbody', hsha', list', hread', hlast⟩ := h.newest source id r hnewest
    obtain rfl : body' = body :=
      hcollision body' hbody' body (hbodies body hbody) (hsha'.trans hr)
    obtain rfl : list' = list := Option.some.inj (hread'.symm.trans hread)
    rw [lastGoodList_concat, hresult]
    split
    · next heq =>
        subst heq
        exact hlast.symm
    · rfl
  · obtain ⟨row, removed, hsource, hsha, hgood, hsnapshot⟩ := hpersist
    exact h.persisted (hbodies body hbody) hread hsource hsha hgood hsnapshot hresult

/-- The turns of a run keep the lists on file. -/
theorem ListsOnFile.turns (hcollision : CollisionFree sha256 bodies)
    (turn : DubSource → SourceTurn Body) (sources : List DubSource) {w : MalHistory}
    (h : ListsOnFile sha256 loads bodies w)
    (hbodies : ∀ source ∈ sources,
      ∀ body ∈ (turn source).attempts.filterMap FetchAttempt.body?, body ∈ bodies) :
    ListsOnFile sha256 loads bodies
      ⟨(ingestSources sha256 loads turn (sources.map DubSource.spec) w.tables).1,
        w.reports ++ (ingestSources sha256 loads turn
          (sources.map DubSource.spec) w.tables).2⟩ := by
  induction sources generalizing w with
  | nil => simpa [ingestSources] using h
  | cons source rest ih =>
      rw [List.map_cons, ingestSources, DubSource.name_spec]
      cases hturn : ingestSource sha256 loads source.spec (turn source) w.tables with
      | mk t' result =>
          have hafter := h.turn hcollision (hbodies source List.mem_cons_self) hturn
          have hrest := ih hafter fun s hs => hbodies s (List.mem_cons_of_mem _ hs)
          rw [List.append_assoc] at hrest
          cases result with
          | raised => exact hafter
          | failed error => exact hrest
          | unchanged list => exact hrest
          | persisted list fetchId removed => exact hrest

/-- The union writes flags only. -/
theorem ListsOnFile.recompute (h : ListsOnFile sha256 loads bodies w) {enabled : List DubSource}
    (henabled : enabled.Nodup) :
    ListsOnFile sha256 loads bodies ⟨(recomputeDubUnion w.tables enabled).1, w.reports⟩ where
  buckets := h.buckets
  listed := fun malId source hsome => by
    rw [row_recomputeDubUnion w.tables henabled, Option.isSome_map]
    exact h.listed malId source hsome
  fetches := h.fetches
  newest := fun source id r hnewest =>
    h.newest source id r ⟨hnewest.onFile, hnewest.ofSource, hnewest.newest⟩

/-- Pruning drops old fetches only. -/
theorem ListsOnFile.prune (h : ListsOnFile sha256 loads bodies w) (keep : Int) :
    ListsOnFile sha256 loads bodies ⟨pruneDubListFetches keep w.tables, w.reports⟩ := by
  have hbuckets : ∀ malId source, bucketOnFile (pruneDubListFetches keep w.tables) malId source =
      bucketOnFile w.tables malId source := by
    intro malId source
    unfold bucketOnFile pruneDubListFetches
    rw [KeyedTable.row_mapRows, Option.map_map]
    rfl
  constructor
  · intro malId source
    rw [hbuckets]
    exact h.buckets malId source
  · intro malId source hsome
    rw [hbuckets] at hsome
    exact h.listed malId source hsome
  · intro id r hid
    simp only [pruneDubListFetches, KeyedTable.row_deleteWhere, Option.filter_eq_some_iff] at hid
    exact h.fetches id r hid.1
  · intro source id r hnewest
    exact h.newest source id r (newestFetch_of_pruneDubListFetches hnewest)

/-! ## The union step of a history -/

theorem nodup_enabledDubSources (flags : DubSourceFlags) :
    ((enabledDubSources flags).map DubSourceSpec.name).Nodup := by
  rcases flags with ⟨_ | _, _ | _⟩ <;> decide

/-- An enabled source is read by its own spec. -/
theorem map_spec_enabledDubSources (flags : DubSourceFlags) :
    ((enabledDubSources flags).map DubSourceSpec.name).map DubSource.spec =
      enabledDubSources flags := by
  rcases flags with ⟨_ | _, _ | _⟩ <;> rfl

/-- The turns of a run keep the lists on file, whatever flags it runs under. -/
theorem ListsOnFile.ingestTurns (hcollision : CollisionFree sha256 bodies)
    (h : ListsOnFile sha256 loads bodies w) (input : MalIngestInput Body)
    (hbodies : ∀ body ∈ input.bodies, body ∈ bodies) :
    ListsOnFile sha256 loads bodies
      ⟨(ingestSources sha256 loads input.turn (enabledDubSources input.flags) w.tables).1,
        w.reports ++
          (ingestSources sha256 loads input.turn (enabledDubSources input.flags) w.tables).2⟩ := by
  have hturns := ListsOnFile.turns hcollision input.turn
    ((enabledDubSources input.flags).map DubSourceSpec.name) h (by
      intro source hsource body hbody
      obtain ⟨spec, hspec, rfl⟩ := List.mem_map.mp hsource
      exact hbodies body (List.mem_flatMap.mpr ⟨spec, hspec, hbody⟩))
  rwa [map_spec_enabledDubSources] at hturns

/-- **Every event keeps the lists on file.** -/
theorem ListsOnFile.after (hcollision : CollisionFree sha256 bodies)
    (h : ListsOnFile sha256 loads bodies w) {event : MalEvent Body}
    (hbodies : ∀ body ∈ event.bodies, body ∈ bodies) :
    ListsOnFile sha256 loads bodies (w.after sha256 loads event) := by
  cases event with
  | prune keep => exact h.prune keep
  | ingest input =>
      have hturns := h.ingestTurns hcollision input hbodies
      unfold MalHistory.after ingestRun
      dsimp only
      split
      · exact hturns.recompute (nodup_enabledDubSources input.flags)
      · exact hturns

/-- An empty schema holds no list. -/
theorem listsOnFile_empty : ListsOnFile sha256 loads bodies ⟨DubTables.empty, []⟩ where
  buckets := fun _ _ => rfl
  listed := fun _ _ h => nomatch h
  fetches := fun _ _ h => nomatch h
  newest := fun _ _ _ h => nomatch h.onFile

theorem listsOnFile_malHistory (hcollision : CollisionFree sha256 bodies)
    {events : List (MalEvent Body)}
    (hbodies : ∀ body ∈ events.flatMap MalEvent.bodies, body ∈ bodies) :
    ListsOnFile sha256 loads bodies (malHistory sha256 loads events) := by
  unfold malHistory
  generalize hw : (⟨DubTables.empty, []⟩ : MalHistory) = w
  have h : ListsOnFile sha256 loads bodies w := hw ▸ listsOnFile_empty
  clear hw
  induction events generalizing w with
  | nil => exact h
  | cons event rest ih =>
      rw [List.flatMap_cons] at hbodies
      exact ih (fun b hb => hbodies b (List.mem_append_right _ hb)) _
        (h.after hcollision fun b hb => hbodies b (List.mem_append_left _ hb))

variable (sha256 loads) in
/-- **The dub flags are those of the last good lists.**  After a run that
reaches its union step, in any history of runs and prunings whose answers have
different digests, the flags of an anime are computed from the last list of
each source enabled in that run that was persisted or found unchanged; an anime
not on file is listed by none of them. -/
theorem dubFlags_malHistory (events : List (MalEvent Body)) (input : MalIngestInput Body)
    (hcollision : CollisionFree sha256
      ((events ++ [MalEvent.ingest input]).flatMap MalEvent.bodies))
    (hunion : (ingestRun sha256 loads input
      (malHistory sha256 loads events).tables).2.dubUnionChanged.isSome = true) (malId : Int) :
    ((malHistory sha256 loads (events ++ [.ingest input])).tables.anime.row malId).getD {} =
      unionFlags (lastGoodList (malHistory sha256 loads (events ++ [.ingest input])).reports)
        ((enabledDubSources input.flags).map DubSourceSpec.name) malId := by
  have hbefore : ListsOnFile sha256 loads _ (malHistory sha256 loads events) :=
    listsOnFile_malHistory hcollision fun body hbody => by
      rw [List.flatMap_append]
      exact List.mem_append_left _ hbody
  have hturns := hbefore.ingestTurns hcollision input fun body hbody => by
    rw [List.flatMap_append]
    exact List.mem_append_right _ (by simpa [MalEvent.bodies] using hbody)
  have hlast : malHistory sha256 loads (events ++ [.ingest input]) =
      (malHistory sha256 loads events).after sha256 loads (.ingest input) := by
    rw [malHistory, List.foldl_append]
    rfl
  rw [hlast, MalHistory.after]
  unfold ingestRun at hunion ⊢
  dsimp only at hunion ⊢
  split at hunion
  · next hreached =>
      rw [if_pos hreached]
      dsimp only
      rw [row_recomputeDubUnion _ (nodup_enabledDubSources input.flags)]
      have hflags : ((enabledDubSources input.flags).map DubSourceSpec.name).filterMap
          (bucketOnFile (ingestSources sha256 loads input.turn (enabledDubSources input.flags)
            (malHistory sha256 loads events).tables).1 malId) = _ :=
        List.filterMap_congr fun source _ => hturns.buckets malId source
      cases hrow : (ingestSources sha256 loads input.turn (enabledDubSources input.flags)
          (malHistory sha256 loads events).tables).1.anime.row malId with
      | some flags => exact congrArg flagsOfBuckets hflags
      | none =>
          have hunlisted : ((enabledDubSources input.flags).map DubSourceSpec.name).filterMap
              (bucketOnFile (ingestSources sha256 loads input.turn (enabledDubSources input.flags)
                (malHistory sha256 loads events).tables).1 malId) = [] := by
            refine List.filterMap_eq_nil_iff.mpr fun source _ => ?_
            by_contra hsome
            have hon := hturns.listed malId source (Option.isSome_iff_ne_none.mpr hsome)
            rw [hrow] at hon
            cases hon
          exact congrArg flagsOfBuckets (hunlisted.symm.trans hflags)
  · cases hunion

/-! ## A history -/

/-- What MAL-Dubs answers. -/
def malDubsBody : String := "\x7b\"dubbed\": [1, 5], \"incomplete\": [3]\x7d"

/-- What MyDubList answers. -/
def mydublistBody : String := "\x7b\"dubbed\": [3], \"partial\": [5]\x7d"

/-- The SHA-256 digests of the two bodies and of the empty one. -/
def digestOf (body : String) : String :=
  if body = malDubsBody then
    "0ec7deefdb11abb0f8b9a0ef50442be75aed04e931b6cc9d9473a4fd749dd9bb"
  else if body = mydublistBody then
    "dcadf881ef9b1da2d9057022fc5fc8987a02185115414e214a21e586fb189289"
  else "e3b0c44298fc1c149afbf4c8996fb92427ae41e4649b934ca495991b7852b855"

/-- What the two bodies hold. -/
def jsonOf (body : String) : Option JsonValue :=
  if body = malDubsBody then
    some (.obj [("dubbed", .arr [.int 1, .int 5]), ("incomplete", .arr [.int 3])])
  else if body = mydublistBody then
    some (.obj [("dubbed", .arr [.int 3]), ("partial", .arr [.int 5])])
  else none

/-- Both lists are fetched. -/
def bothFetched : MalIngestInput String where
  flags := {}
  turn := fun
    | .malDubs => ⟨[.response 200 malDubsBody], false⟩
    | .mydublist => ⟨[.response 200 mydublistBody], false⟩

/-- One list is unchanged, after a second attempt; the other does not answer. -/
def unchangedAndFailed : MalIngestInput String where
  flags := {}
  turn := fun
    | .malDubs => ⟨[.response 503 "", .response 200 malDubsBody], false⟩
    | .mydublist => ⟨[.noResponse], false⟩

/-- An anime that one source lists in part and the other in full is dubbed,
from two sources, also after a run that reads neither list anew. -/
theorem dubFlags_malHistory_unchangedAndFailed :
    (((malHistory digestOf jsonOf [.ingest bothFetched, .prune 1,
      .ingest unchangedAndFailed]).tables.anime.row 3).getD {}) = ⟨true, .dubbed, 2⟩ :=
  (dubFlags_malHistory digestOf jsonOf [.ingest bothFetched, .prune 1] unchangedAndFailed
    (by decide +kernel) (by decide +kernel) 3).trans (by decide +kernel)

end Histories

end Nebularr
