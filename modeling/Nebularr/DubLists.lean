import Mathlib.Data.List.MinMax
import Nebularr.Matcher

/-!
# Dub lists

Two public lists name the anime with an English dub, each with the ids of full
and of partial dubs.  A MAL ingest run fetches the lists of the enabled
sources, keeps the membership rows of each source in step with its list, and
derives the dub flags of every anime from the rows of the sources enabled in
that run.  A list that cannot be fetched or read leaves the rows of its source
as they are, and so does one with the digest of the latest fetch on file.

The bytes of a response, their digest and the JSON text they hold are
parameters.
-/

namespace Nebularr

/-- `mal.anime_dub_source.source`. -/
inductive DubSource
  | malDubs
  | mydublist
deriving DecidableEq, Repr

structure DubSourceSpec where
  name : DubSource
  dubbedKey : String
  partialKey : String
deriving DecidableEq, Repr

def DubSource.spec : DubSource → DubSourceSpec
  | .malDubs => ⟨.malDubs, "dubbed", "incomplete"⟩
  | .mydublist => ⟨.mydublist, "dubbed", "partial"⟩

@[simp] theorem DubSource.name_spec (source : DubSource) : source.spec.name = source := by
  cases source <;> rfl

/-- The flags of `read_mal_feature_flags` that choose the sources. -/
structure DubSourceFlags where
  sourceMalDubsEnabled : Bool := true
  sourceMydublistEnabled : Bool := true
deriving DecidableEq, Repr

def enabledDubSources (flags : DubSourceFlags) : List DubSourceSpec :=
  (if flags.sourceMalDubsEnabled then [DubSource.malDubs.spec] else []) ++
    (if flags.sourceMydublistEnabled then [DubSource.mydublist.spec] else [])

/-! ## Reading a list -/

/-- A JSON value.  Of a number with a fraction or an exponent only what `int`
makes of it is kept: nothing, for one that is not finite. -/
inductive JsonValue
  | null
  | bool (b : Bool)
  | int (n : Int)
  | float (truncated : Option Int)
  | str (text : String)
  | arr (items : List JsonValue)
  | obj (fields : List (String × JsonValue))

/-- `int(x)`, where it does not raise. -/
def JsonValue.toInt : JsonValue → Option Int
  | .bool b => some (if b then 1 else 0)
  | .int n => some n
  | .float truncated => truncated
  | .str text => pyInt text.toList
  | _ => none

/-- `d.get(key)`. -/
def getField (fields : List (String × JsonValue)) (key : String) : Option JsonValue :=
  (fields.find? fun f => f.1 = key).map Prod.snd

/-- Why a source's list was not read. -/
inductive DubListError
  | fetchFailed
  | notAnObject
  | missingArray (key : String)
  | notAnInteger
deriving DecidableEq, Repr

/-- What a list says: the ids of full dubs and those of partial ones. -/
structure DubList where
  dubbedIds : List Int
  partialIds : List Int
deriving DecidableEq, Repr

/-- `sorted({…})`. -/
def sortedIds (ids : List Int) : List Int := ids.dedup.insertionSort fun a b => a ≤ b

/-- `parse_dub_source_payload`: an id in both arrays counts as dubbed. -/
def parseDubSourcePayload (spec : DubSourceSpec) : JsonValue → Except DubListError DubList
  | .obj fields =>
      match getField fields spec.dubbedKey with
      | some (.arr dubbedRaw) =>
          let partialRaw := match getField fields spec.partialKey with
            | some (.arr items) => items
            | _ => []
          match dubbedRaw.mapM JsonValue.toInt, partialRaw.mapM JsonValue.toInt with
          | some dubbed, some partials =>
              .ok ⟨sortedIds dubbed, sortedIds (partials.filter fun id => id ∉ dubbed)⟩
          | _, _ => .error .notAnInteger
      | _ => .error (.missingArray spec.dubbedKey)
  | _ => .error .notAnObject

section Fetch

variable {Body : Type} (loads : Body → Option JsonValue)

/-- What comes of one `GET` of a list. -/
inductive FetchAttempt (Body : Type)
  | noResponse
  | response (status : Nat) (body : Body)
deriving DecidableEq, Repr

/-- The statuses that are tried again while attempts are left. -/
def retriedStatuses : List Nat := [429, 500, 502, 503, 504]

/-- `DubListClient.fetch`, over the outcomes of the allowed attempts: the body
of the first response that is a success and holds JSON. -/
def fetchDubList : List (FetchAttempt Body) → Option (Body × JsonValue × Nat)
  | [] => none
  | .noResponse :: rest => fetchDubList rest
  | .response status body :: rest =>
      if status ∈ retriedStatuses ∧ rest ≠ [] then fetchDubList rest
      else if 200 ≤ status ∧ status < 300 then
        match loads body with
        | some data => some (body, data, status)
        | none => fetchDubList rest
      else fetchDubList rest

end Fetch

/-! ## The tables -/

/-- A row of `mal.dub_list_fetch`. -/
structure DubListFetchRow where
  sourceName : DubSource
  contentSha256 : String
  idCount : Nat
  httpStatus : Option Nat
  errorMessage : Option String
deriving DecidableEq, Repr

/-- A row of `mal.anime_dub_source`; its status is `dubbed` or `partial`. -/
structure DubSourceRow where
  status : DubStatus
  lastFetchId : Option Nat
deriving DecidableEq, Repr

/-- The columns of `mal.anime` that the union derives, with their defaults. -/
structure DubFlags where
  isEnglishDubbed : Bool := false
  dubStatus : DubStatus := .noDub
  dubSourceCount : Nat := 0
deriving DecidableEq, Repr

structure DubTables where
  dubListFetch : KeyedTable Nat DubListFetchRow
  /-- The last id that `dub_list_fetch` was given. -/
  lastFetchSeq : Nat
  animeDubSource : KeyedTable (Int × DubSource) DubSourceRow
  anime : KeyedTable Int DubFlags

/-- The schema before the first run. -/
def DubTables.empty : DubTables := ⟨KeyedTable.empty, 0, KeyedTable.empty, KeyedTable.empty⟩

/-- `error_message is null and http_status is not null and http_status < 400`. -/
def DubListFetchRow.succeeded (r : DubListFetchRow) : Bool :=
  r.errorMessage.isNone && r.httpStatus.any fun status => decide (status < 400)

/-- `latest_dub_list_sha`: of the source's successful fetch with the greatest
id. -/
def latestDubListSha (t : DubTables) (source : DubSource) : Option String :=
  (((t.dubListFetch.selectWhere fun _ r => r.succeeded && decide (r.sourceName = source)).argmax
    Prod.fst).map fun newest => newest.2.contentSha256).filter fun sha => sha ≠ ""

/-- `prune_dub_list_fetches`: delete the fetches that have `keep` newer ones of
their source.  The membership rows stay, without the id of a deleted fetch. -/
def pruneDubListFetches (keepPerSource : Int) (t : DubTables) : DubTables :=
  let keep := max 1 keepPerSource
  let dubListFetch := t.dubListFetch.deleteWhere fun id r =>
    decide (keep < 1 + t.dubListFetch.countWhere fun id' r' =>
      decide (r'.sourceName = r.sourceName) && decide (id < id'))
  { t with
    dubListFetch
    animeDubSource := t.animeDubSource.mapRows fun _ r =>
      { r with lastFetchId := r.lastFetchId.filter fun id => (dubListFetch.row id).isSome } }

/-- `insert_dub_list_fetch`, and the id it returns. -/
def insertDubListFetch (row : DubListFetchRow) (t : DubTables) : DubTables × Nat :=
  let id := t.lastFetchSeq + 1
  ({ t with dubListFetch := t.dubListFetch.upsert id row fun _ => row, lastFetchSeq := id }, id)

/-- An `int` column holds the number. -/
def isInt4 (n : Int) : Bool := decide (-2147483648 ≤ n ∧ n ≤ 2147483647)

/-- The membership rows of one bucket: bare anime rows for ids not on file, and
a row of the source for each id. -/
def listBucket (fetchId : Nat) (source : DubSource) (ids : List Int) (status : DubStatus)
    (t : DubTables) : DubTables :=
  { t with
    anime := ids.foldl (fun anime malId => anime.upsert malId {} id) t.anime
    animeDubSource := t.animeDubSource.putEach
      (ids.map fun malId => ((malId, source), ⟨status, some fetchId⟩)) }

/-- `upsert_dub_source_snapshot`: the tables and the number of rows removed.
It raises for an id that is no `int`. -/
def upsertDubSourceSnapshot (fetchId : Nat) (source : DubSource) (list : DubList) (t : DubTables) :
    Option (DubTables × Nat) :=
  let dubbed := sortedIds list.dubbedIds
  let partials := sortedIds (list.partialIds.filter fun id => id ∉ list.dubbedIds)
  let allIds := dubbed ++ partials
  if allIds.all isInt4 then
    let t' := listBucket fetchId source partials .partlyDubbed
      (listBucket fetchId source dubbed .dubbed t)
    let gone : Int × DubSource → DubSourceRow → Bool := fun key _ =>
      decide (key.2 = source) && decide (key.1 ∉ allIds)
    some ({ t' with animeDubSource := t'.animeDubSource.deleteWhere gone },
      t'.animeDubSource.countWhere gone)
  else none

/-! ## The union -/

/-- The group of an anime in `agg`: its rows of the enabled sources. -/
def dubGroup (t : DubTables) (enabled : List DubSource) (malId : Int) : List DubSourceRow :=
  (t.animeDubSource.selectWhere fun key _ =>
    decide (key.1 = malId) && decide (key.2 ∈ enabled)).map Prod.snd

/-- The row of an anime in `agg`: its status and count, if it has a group. -/
def dubAgg (t : DubTables) (enabled : List DubSource) (malId : Int) : Option (DubStatus × Nat) :=
  match dubGroup t enabled malId with
  | [] => none
  | group => some (if group.any fun r => r.status = .dubbed then .dubbed else .partlyDubbed,
      group.length)

/-- The flags that `agg` gives an anime. -/
def flagsOfAgg (agg : Option (DubStatus × Nat)) : DubFlags where
  isEnglishDubbed := agg.isSome
  dubStatus := (agg.map Prod.fst).getD .noDub
  dubSourceCount := (agg.map Prod.snd).getD 0

/-- `recompute_dub_union`: set the flags of the anime whose flags differ from
the derived ones, and count them. -/
def recomputeDubUnion (t : DubTables) (enabled : List DubSource) : DubTables × Nat :=
  ({ t with anime := t.anime.mapRows fun malId flags =>
      if flags ≠ flagsOfAgg (dubAgg t enabled malId) then flagsOfAgg (dubAgg t enabled malId)
      else flags },
    t.anime.countWhere fun malId flags => flags ≠ flagsOfAgg (dubAgg t enabled malId))

/-! ## A run -/

/-- What the outside does in one source's turn: the answers to the attempts at
its list, and whether the turn is broken off (the transaction raises, or the
run is cancelled), which leaves the tables as they are and ends the run. -/
structure SourceTurn (Body : Type) where
  attempts : List (FetchAttempt Body)
  brokenOff : Bool := false
deriving DecidableEq, Repr

structure MalIngestInput (Body : Type) where
  flags : DubSourceFlags
  turn : DubSource → SourceTurn Body
  /-- The run ends before the transaction of the union commits. -/
  unionBrokenOff : Bool := false

/-- What a source's turn ends with. -/
inductive SourceResult
  | failed (error : DubListError)
  | unchanged (list : DubList)
  | persisted (list : DubList) (fetchId removed : Nat)
  | raised
deriving DecidableEq, Repr

/-- What a run reports: how each turn ended, and how many anime the union step
changed, if the run reached it. -/
structure IngestReport where
  sources : List (DubSource × SourceResult)
  dubUnionChanged : Option Nat
deriving DecidableEq, Repr

section Run

variable {Body : Type} (sha256 : Body → String) (loads : Body → Option JsonValue)

/-- `_persist_source`, for a list that was read. -/
def persistSource (spec : DubSourceSpec) (body : Body) (httpStatus : Nat) (list : DubList)
    (t : DubTables) : DubTables × SourceResult :=
  if latestDubListSha t spec.name = some (sha256 body) then (t, .unchanged list)
  else
    let (t', fetchId) := insertDubListFetch
      { sourceName := spec.name
        contentSha256 := sha256 body
        idCount := list.dubbedIds.length + list.partialIds.length
        httpStatus := some httpStatus
        errorMessage := none } t
    match upsertDubSourceSnapshot fetchId spec.name list t' with
    | some (t'', removed) => (t'', .persisted list fetchId removed)
    | none => (t, .raised)

/-- One source's turn. -/
def ingestSource (spec : DubSourceSpec) (turn : SourceTurn Body) (t : DubTables) :
    DubTables × SourceResult :=
  if turn.brokenOff then (t, .raised)
  else
    match fetchDubList loads turn.attempts with
    | none => (t, .failed .fetchFailed)
    | some (body, data, status) =>
        match parseDubSourcePayload spec data with
        | .error error => (t, .failed error)
        | .ok list => persistSource sha256 spec body status list t

/-- The loop over the sources; a turn that raises is the last. -/
def ingestSources (turn : DubSource → SourceTurn Body) :
    List DubSourceSpec → DubTables → DubTables × List (DubSource × SourceResult)
  | [], t => (t, [])
  | spec :: rest, t =>
      match ingestSource sha256 loads spec (turn spec.name) t with
      | (t', .raised) => (t', [(spec.name, .raised)])
      | (t', result) =>
          let (t'', results) := ingestSources turn rest t'
          (t'', (spec.name, result) :: results)

def SourceResult.isFailed : SourceResult → Bool
  | .failed _ => true
  | _ => false

/-- The run goes on to the union: no turn raised, and not every source of some
failed. -/
def unionReached (specs : List DubSourceSpec) (results : List (DubSource × SourceResult)) : Bool :=
  decide (∀ r ∈ results, r.2 ≠ .raised) &&
    !(decide (specs ≠ []) && decide (results.countP (fun r => r.2.isFailed) = specs.length))

/-- `MalIngestService.run`, up to the union. -/
def ingestRun (input : MalIngestInput Body) (t : DubTables) : DubTables × IngestReport :=
  let specs := enabledDubSources input.flags
  let (t', results) := ingestSources sha256 loads input.turn specs t
  if unionReached specs results && !input.unionBrokenOff then
    let (t'', changed) := recomputeDubUnion t' (specs.map DubSourceSpec.name)
    (t'', ⟨results, some changed⟩)
  else (t', ⟨results, none⟩)

end Run

end Nebularr
