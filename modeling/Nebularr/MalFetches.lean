import Nebularr.DubUnion
import Nebularr.Worklist

/-!
# Fetching the dubbed anime from MAL

A MAL ingest run brings the dub lists up to date, and then asks MAL for the
first ids, up to a limit, of the dubbed anime that were not fetched yet, whose
last fetch failed or is too old.  What MAL answers for an id decides whether it
is pending still, so the runs work the pending ids off from the least id on.

The columns of `mal.anime` that the fetch writes are in a table of their own; an
anime without a row there has the values of a bare row.
-/

namespace Nebularr

/-! ## The tables -/

/-- `mal_fetch_status`. -/
inductive FetchStatus
  | pending
  | success
  | error
  | notFound
deriving DecidableEq, Repr

/-- The columns that decide whether an anime is to be fetched; times in
seconds. -/
structure FetchCols where
  status : FetchStatus := .pending
  malFetchedAt : Option Int := none
deriving DecidableEq, Repr

structure MalFetchTables where
  dub : DubTables
  fetch : KeyedTable Int FetchCols

/-- The fetch columns of an anime. -/
def MalFetchTables.cols (t : MalFetchTables) (malId : Int) : FetchCols :=
  (t.fetch.row malId).getD {}

/-- `interval '14 days'`. -/
def refetchAfter : Int := 1209600

/-- The condition of `list_anime_needing_mal_fetch`, on an anime that is dubbed. -/
def FetchCols.needsFetch (now : Int) (cols : FetchCols) : Bool :=
  decide (cols.status = .pending) || decide (cols.status = .error) || cols.malFetchedAt.isNone ||
    cols.malFetchedAt.any fun at_ => decide (at_ < now - refetchAfter)

/-- The pending ids, `order by mal_id`. -/
def MalFetchTables.pendingIds (now : Int) (t : MalFetchTables) : List Int :=
  ((t.dub.anime.selectWhere fun malId flags =>
    flags.isEnglishDubbed && (t.cols malId).needsFetch now).map Prod.fst).insertionSort
      fun a b => a ≤ b

/-- `list_anime_needing_mal_fetch`. -/
def listAnimeNeedingMalFetch (now : Int) (limit : ℕ) (t : MalFetchTables) : List Int :=
  (t.pendingIds now).take limit

/-- `count_anime_needing_mal_fetch`. -/
def countAnimeNeedingMalFetch (now : Int) (t : MalFetchTables) : ℕ := (t.pendingIds now).length

/-! ## Asking MAL -/

/-- What comes of one request for an anime. -/
inductive MalAttempt
  | data
  | notFound
  /-- An error of the API in a 200 body, or a body that is no object: the next
  field set is tried at once. -/
  | rejected
  /-- Any other status, or no response: the same is tried again, if it may be. -/
  | failed
deriving DecidableEq, Repr

/-- What `get_anime` returns. -/
inductive MalAnswer
  | data
  | notFound
  | failed
deriving DecidableEq, Repr

/-- The attempts with one field set. -/
def tryFields : List MalAttempt → Option MalAnswer
  | [] => none
  | .data :: _ => some .data
  | .notFound :: _ => some .notFound
  | .rejected :: _ => none
  | .failed :: rest => tryFields rest

/-- `get_anime`, over the attempts that each field set is allowed. -/
def getAnime (variants : List (List MalAttempt)) : MalAnswer :=
  (variants.findSome? tryFields).getD .failed

/-- One id of a batch: the attempts, whether anything raises before it is
written, and when it is written. -/
structure MalTurn where
  variants : List (List MalAttempt)
  raises : Bool := false
  writtenAt : Int

/-- The status that `_persist_anime` writes. -/
def MalAnswer.status : MalAnswer → FetchStatus
  | .data => .success
  | .notFound => .notFound
  | .failed => .error

/-- `upsert_anime_from_mal_api`, as far as it decides about fetching. -/
def persistAnime (malId : Int) (turn : MalTurn) (t : MalFetchTables) : MalFetchTables :=
  let cols : FetchCols := ⟨(getAnime turn.variants).status, some turn.writtenAt⟩
  { t with fetch := t.fetch.upsert malId cols fun _ => cols }

/-- The loop over a batch; `false` if it raised. -/
def fetchBatch (turn : Int → MalTurn) : List Int → MalFetchTables → MalFetchTables × Bool
  | [], t => (t, true)
  | malId :: rest, t =>
      if (turn malId).raises then (t, false)
        else fetchBatch turn rest (persistAnime malId (turn malId) t)

/-- `_ingest_batch_limit`. -/
def ingestBatchLimit (malMaxIdsPerRun : Int) (maxIdsPerRun : Option Int) : ℕ :=
  (max 1 (min (maxIdsPerRun.getD malMaxIdsPerRun) 500)).toNat

/-- A run fetches something, whatever it is asked for. -/
theorem ingestBatchLimit_pos (malMaxIdsPerRun : Int) (maxIdsPerRun : Option Int) :
    0 < ingestBatchLimit malMaxIdsPerRun maxIdsPerRun := by
  unfold ingestBatchLimit
  omega

/-! ## A run, and a backlog of runs -/

/-- What the outside does in a run. -/
structure MalRunInput (Body : Type) where
  dubs : MalIngestInput Body
  /-- When the batch is listed. -/
  listedAt : Int
  clientIdSet : Bool := true
  turn : Int → MalTurn

section Runs

variable {Body : Type} (sha256 : Body → String) (loads : Body → Option JsonValue)

/-- `MalIngestService.run`: the tables, and `mal_api_calls` if it did not raise. -/
def malRun (limit : ℕ) (input : MalRunInput Body) (t : MalFetchTables) :
    MalFetchTables × Option ℕ :=
  let (dub, report) := ingestRun sha256 loads input.dubs t.dub
  let listed : MalFetchTables := { t with dub := dub }
  match report.dubUnionChanged with
  | none => (listed, none)
  | some _ =>
      let batch := listAnimeNeedingMalFetch input.listedAt limit listed
      if batch ≠ [] ∧ input.clientIdSet = false then (listed, none)
      else
        match fetchBatch input.turn batch listed with
        | (t', true) => (t', some batch.length)
        | (t', false) => (t', none)

/-- The cycles of `_run_backlog_cycles`, each with the time at which it counts
what is left; nothing, if a run raises. -/
def backlogCycles (limit : ℕ) :
    List (MalRunInput Body × Int) → ℕ → MalFetchTables → MalFetchTables × Option ℕ
  | [], pendingAfter, t => (t, some pendingAfter)
  | (input, countedAt) :: rest, pendingAfter, t =>
      if pendingAfter = 0 then (t, some pendingAfter)
      else
        match malRun sha256 loads limit input t with
        | (t', none) => (t', none)
        | (t', some calls) =>
            if calls = 0 then (t', some (countAnimeNeedingMalFetch countedAt t'))
            else backlogCycles limit rest (countAnimeNeedingMalFetch countedAt t') t'

/-- `max_cycles` of an import of everything. -/
def importAllCycles (pendingBefore batchSize : ℕ) : ℕ :=
  if pendingBefore = 0 then 0 else min 500 ((pendingBefore + batchSize - 1) / batchSize + 2)

end Runs

/-! ## The pending ids -/

section Pending

variable {t t' : MalFetchTables} {now later : Int} {malId : Int}

/-- An anime counts as dubbed. -/
def MalFetchTables.dubbed (t : MalFetchTables) (malId : Int) : Bool :=
  ((t.dub.anime.row malId).getD {}).isEnglishDubbed

/-- An anime is pending if it is dubbed and due. -/
theorem mem_pendingIds_iff :
    malId ∈ t.pendingIds now ↔ t.dubbed malId = true ∧ (t.cols malId).needsFetch now = true := by
  rw [MalFetchTables.pendingIds, List.mem_insertionSort, List.mem_map]
  constructor
  · rintro ⟨⟨_, flags⟩, hmem, rfl⟩
    obtain ⟨hrow, hp⟩ := KeyedTable.mem_selectWhere_iff.mp hmem
    obtain ⟨hdubbed, hneeds⟩ := Bool.and_eq_true_iff.mp hp
    rw [MalFetchTables.dubbed, hrow]
    exact ⟨hdubbed, hneeds⟩
  · rintro ⟨hdubbed, hneeds⟩
    unfold MalFetchTables.dubbed at hdubbed
    cases hrow : t.dub.anime.row malId with
    | none =>
        rw [hrow] at hdubbed
        cases hdubbed
    | some flags =>
        rw [hrow, Option.getD_some] at hdubbed
        refine ⟨(malId, flags), KeyedTable.mem_selectWhere_iff.mpr ⟨hrow, ?_⟩, rfl⟩
        rw [hdubbed, hneeds]
        rfl

/-- The pending ids ascend. -/
theorem pairwise_pendingIds : (t.pendingIds now).Pairwise (· < ·) := by
  have hnodup : (t.pendingIds now).Nodup :=
    (List.perm_insertionSort _ _).nodup_iff.mpr (KeyedTable.nodup_selectWhere _ _)
  have hsorted : (t.pendingIds now).Pairwise (· ≤ ·) := List.pairwise_insertionSort _ _
  exact (hsorted.and hnodup).imp fun h => lt_of_le_of_ne h.1 h.2

/-- Two ascending lists with the same members are one. -/
theorem eq_of_pairwise_lt {l l' : List Int} (hl : l.Pairwise (· < ·)) (hl' : l'.Pairwise (· < ·))
    (h : ∀ k, k ∈ l ↔ k ∈ l') : l = l' := by
  have hne : ∀ {r : List Int}, r.Pairwise (· < ·) → r.Nodup :=
    fun hr => hr.imp fun hlt => ne_of_lt hlt
  have hperm : l.Perm l' := (List.perm_ext_iff_of_nodup (hne hl) (hne hl')).mpr h
  exact hperm.eq_of_pairwise (fun _ _ _ _ hab hba => absurd hab (lt_asymm hba)) hl hl'

/-- What is pending depends on the flags and on what is due. -/
theorem pendingIds_congr (hdubbed : ∀ malId, t'.dubbed malId = t.dubbed malId)
    (hneeds : ∀ malId, (t'.cols malId).needsFetch later = (t.cols malId).needsFetch now) :
    t'.pendingIds later = t.pendingIds now := by
  refine eq_of_pairwise_lt pairwise_pendingIds pairwise_pendingIds fun k => ?_
  rw [mem_pendingIds_iff, mem_pendingIds_iff, hdubbed, hneeds]

/-- A fetch only gets older. -/
theorem needsFetch_mono {cols : FetchCols} (hle : now ≤ later) (h : cols.needsFetch now = true) :
    cols.needsFetch later = true := by
  unfold FetchCols.needsFetch at h ⊢
  cases hat : cols.malFetchedAt with
  | none => simp
  | some at_ =>
      rw [hat] at h
      simp only [Option.isNone_some, Option.any_some, Bool.or_false, Bool.or_eq_true,
        decide_eq_true_eq] at h ⊢
      exact h.imp_right fun hold => by omega

end Pending

/-! ## The dub lists do not change -/

section Dubs

variable {Body : Type} {sha256 : Body → String} {loads : Body → Option JsonValue}
  {t t' : DubTables}

/-- The turn of a source adds bare rows only. -/
theorem getD_ingestSource {source : DubSource} {turn : SourceTurn Body} {result : SourceResult}
    (h : ingestSource sha256 loads source.spec turn t = (t', result)) (malId : Int) :
    (t'.anime.row malId).getD {} = (t.anime.row malId).getD {} := by
  obtain ⟨rfl, -⟩ | ⟨_, -, list, -, -, ⟨rfl, -⟩ | ⟨row, removed, -, -, -, hsnapshot⟩⟩ :=
    ingestSource_cases sha256 loads h
  · rfl
  · rfl
  · rw [tables_upsertDubSourceSnapshot hsnapshot]
    simp only [listBucket]
    rw [row_addBare, row_addBare]
    change (((t.anime.row malId).or _).or _).getD {} = _
    cases t.anime.row malId with
    | some flags => rfl
    | none =>
        simp only [Option.none_or]
        split <;> split <;> rfl

/-- The dub lists leave the other columns. -/
theorem getD_ingestSources (turn : DubSource → SourceTurn Body) (sources : List DubSource)
    (t : DubTables) (malId : Int) :
    ((ingestSources sha256 loads turn (sources.map DubSource.spec) t).1.anime.row malId).getD {} =
      (t.anime.row malId).getD {} := by
  induction sources generalizing t with
  | nil => rfl
  | cons source rest ih =>
      rw [List.map_cons, ingestSources]
      cases hone : ingestSource sha256 loads source.spec (turn source.spec.name) t with
      | mk t' result =>
          have hkept := getD_ingestSource hone malId
          cases result with
          | raised => exact hkept
          | failed error => exact (ih t').trans hkept
          | unchanged list => exact (ih t').trans hkept
          | persisted list fetchId removed => exact (ih t').trans hkept

/-- A union step that changes no row leaves the flags as they are. -/
theorem row_recomputeDubUnion_of_unchanged {enabled : List DubSource}
    (h : (recomputeDubUnion t enabled).2 = 0) (malId : Int) :
    (recomputeDubUnion t enabled).1.anime.row malId = t.anime.row malId := by
  have hnone : t.anime.countWhere
      (fun malId flags => flags ≠ flagsOfAgg (dubAgg t enabled malId)) = 0 := h
  rw [recomputeDubUnion, KeyedTable.row_mapRows]
  cases hrow : t.anime.row malId with
  | none => rfl
  | some flags =>
      rw [Option.map_some]
      split
      · next hdiffers =>
          have hpos : 0 < t.anime.countWhere
              (fun malId flags => flags ≠ flagsOfAgg (dubAgg t enabled malId)) :=
            KeyedTable.countWhere_pos_iff.mpr ⟨malId, flags, hrow, decide_eq_true hdiffers⟩
          exact absurd hnone hpos.ne'
      · rfl

/-- **A run that changes no flag** leaves what counts as dubbed. -/
theorem getD_ingestRun {input : MalIngestInput Body}
    (h : (ingestRun sha256 loads input t).2.dubUnionChanged = some 0) (malId : Int) :
    ((ingestRun sha256 loads input t).1.anime.row malId).getD {} = (t.anime.row malId).getD {} := by
  have hsources := @getD_ingestSources Body sha256 loads input.turn
    ((enabledDubSources input.flags).map DubSourceSpec.name) t malId
  rw [map_spec_enabledDubSources] at hsources
  unfold ingestRun at h ⊢
  dsimp only at h ⊢
  split
  · next hreached =>
      rw [if_pos hreached] at h
      dsimp only
      rw [row_recomputeDubUnion_of_unchanged (Option.some.inj h)]
      exact hsources
  · exact hsources

end Dubs

/-! ## A batch -/

section Batch

variable {turn : Int → MalTurn} {t t' : MalFetchTables}

/-- An anime that is persisted has its status and its time; the others keep
theirs. -/
theorem cols_persistAnime (malId malId' : Int) (one : MalTurn) (t : MalFetchTables) :
    (persistAnime malId one t).cols malId' =
      if malId' = malId then ⟨(getAnime one.variants).status, some one.writtenAt⟩
        else t.cols malId' := by
  rw [MalFetchTables.cols, persistAnime, KeyedTable.row_upsert]
  split
  · cases t.fetch.row malId <;> rfl
  · rfl

/-- Fetching changes no flag. -/
theorem dub_fetchBatch (batch : List Int) (t : MalFetchTables) :
    (fetchBatch turn batch t).1.dub = t.dub := by
  induction batch generalizing t with
  | nil => rfl
  | cons malId rest ih =>
      rw [fetchBatch]
      split
      · rfl
      · exact ih _

/-- **What a batch leaves**, if it went through. -/
theorem cols_fetchBatch {batch : List Int} (h : fetchBatch turn batch t = (t', true))
    (malId : Int) :
    t'.cols malId =
      if malId ∈ batch then ⟨(getAnime (turn malId).variants).status, some (turn malId).writtenAt⟩
      else t.cols malId := by
  induction batch generalizing t with
  | nil =>
      obtain ⟨rfl, -⟩ := Prod.mk.inj h
      rfl
  | cons first rest ih =>
      rw [fetchBatch] at h
      split at h
      · cases (Prod.mk.inj h).2
      · rw [ih h, cols_persistAnime]
        by_cases hfirst : malId = first
        · subst hfirst
          simp
        · simp [hfirst]

end Batch

/-! ## A run within fourteen days -/

section Within

variable {Body : Type} {sha256 : Body → String} {loads : Body → Option JsonValue}
  {t t' : MalFetchTables} {start stop now : Int} {limit calls : ℕ} {input : MalRunInput Body}

/-- Nothing that was fetched falls due in a stretch of time. -/
def MalFetchTables.NoneDue (start stop : Int) (t : MalFetchTables) : Prop :=
  ∀ malId, (t.cols malId).needsFetch stop = true → (t.cols malId).needsFetch start = true

/-- A run falls into a stretch of time. -/
structure MalRunInput.Within (start stop : Int) (input : MalRunInput Body) : Prop where
  start_le_listed : start ≤ input.listedAt
  listed_le_stop : input.listedAt ≤ stop
  start_le_written : ∀ malId, start ≤ (input.turn malId).writtenAt

/-- MAL gives no answer for an anime in a run. -/
def MalRunInput.fails (input : MalRunInput Body) (malId : Int) : Bool :=
  decide (getAnime (input.turn malId).variants = .failed)

/-- In such a stretch it does not matter when the pending ids are listed. -/
theorem MalFetchTables.NoneDue.pendingIds_eq (h : t.NoneDue start stop) (hstart : start ≤ now)
    (hstop : now ≤ stop) : t.pendingIds now = t.pendingIds stop := by
  refine pendingIds_congr (fun _ => rfl) fun malId =>
    Bool.eq_iff_iff.mpr ⟨needsFetch_mono hstop, ?_⟩
  exact fun hneeds => needsFetch_mono hstart (h malId hneeds)

/-- A row written in the stretch is pending if there was no answer. -/
theorem needsFetch_written (hspan : stop ≤ start + refetchAfter) {at_ : Int} (hat : start ≤ at_)
    (hnow : now ≤ stop) (answer : MalAnswer) :
    (FetchCols.mk answer.status (some at_)).needsFetch now = decide (answer = .failed) := by
  have hfresh : ¬ at_ < now - refetchAfter := by omega
  cases answer <;> simp [FetchCols.needsFetch, MalAnswer.status, hfresh]

/-- **A run is a round** over the pending ids. -/
theorem pendingIds_malRun (hspan : stop ≤ start + refetchAfter) (hle : start ≤ stop)
    (hwithin : input.Within start stop) (hdue : t.NoneDue start stop)
    (hdubs : (ingestRun sha256 loads input.dubs t.dub).2.dubUnionChanged = some 0)
    (h : malRun sha256 loads limit input t = (t', some calls)) :
    t'.NoneDue start stop ∧ (∀ malId, t'.dubbed malId = t.dubbed malId) ∧
      t'.pendingIds stop = workRound limit input.fails (t.pendingIds stop) ∧
      calls = ((t.pendingIds stop).take limit).length := by
  have hflags := getD_ingestRun hdubs
  unfold malRun at h
  generalize ingestRun sha256 loads input.dubs t.dub = result at h hdubs hflags
  obtain ⟨dub, report⟩ := result
  dsimp only at h hdubs hflags
  rw [hdubs] at h
  dsimp only at h
  generalize hlisted : ({ t with dub := dub } : MalFetchTables) = listed at h
  have hcols : ∀ malId, listed.cols malId = t.cols malId := fun _ => hlisted ▸ rfl
  have hdubbed : ∀ malId, listed.dubbed malId = t.dubbed malId := fun malId => by
    rw [← hlisted]
    exact congrArg DubFlags.isEnglishDubbed (hflags malId)
  have hbatch : listAnimeNeedingMalFetch input.listedAt limit listed =
      (t.pendingIds stop).take limit := by
    rw [listAnimeNeedingMalFetch,
      ← hdue.pendingIds_eq hwithin.start_le_listed hwithin.listed_le_stop]
    exact congrArg (List.take limit) (pendingIds_congr hdubbed fun malId => by rw [hcols])
  rw [hbatch] at h
  split at h
  · cases (Prod.mk.inj h).2
  · split at h
    · next t'' hthrough =>
        obtain ⟨rfl, hcalls⟩ := Prod.mk.inj h
        have hleft := cols_fetchBatch hthrough
        have hneeds : ∀ malId now, now ≤ stop → (t''.cols malId).needsFetch now =
            if malId ∈ (t.pendingIds stop).take limit then input.fails malId
            else (t.cols malId).needsFetch now := by
          intro malId now hnow
          rw [hleft, hcols]
          split
          · exact needsFetch_written hspan (hwithin.start_le_written malId) hnow _
          · rfl
        have hsame : ∀ malId, t''.dubbed malId = t.dubbed malId := by
          intro malId
          rw [← hdubbed, MalFetchTables.dubbed, MalFetchTables.dubbed,
            ← congrArg MalFetchTables.dub (congrArg Prod.fst hthrough), dub_fetchBatch]
        refine ⟨?_, hsame, ?_, (Option.some.inj hcalls).symm⟩
        · intro malId hstop
          rw [hneeds malId stop (Int.le_refl stop)] at hstop
          rw [hneeds malId start hle]
          split at hstop
          · rwa [if_pos ‹_›]
          · rw [if_neg ‹_›]
            exact hdue malId hstop
        · refine eq_of_pairwise_lt pairwise_pendingIds
            (pairwise_pendingIds.sublist workRound_sublist) ?_
          intro malId
          have hnodup : (t.pendingIds stop).Nodup := pairwise_pendingIds.imp fun hlt => ne_of_lt hlt
          rw [mem_pendingIds_iff, hsame, hneeds malId stop (Int.le_refl stop),
            mem_workRound_iff hnodup,
            mem_pendingIds_iff]
          split
          · next htake =>
              have hold := mem_pendingIds_iff.mp (List.mem_of_mem_take htake)
              simp [hold, htake]
          · next htake => simp [htake]
    · cases (Prod.mk.inj h).2

end Within

/-! ## Run after run -/

section RunAfterRun

variable {Body : Type} (sha256 : Body → String) (loads : Body → Option JsonValue)

/-- Runs one after the other. -/
def malRuns (limit : ℕ) (inputs : List (MalRunInput Body)) (t : MalFetchTables) : MalFetchTables :=
  inputs.foldl (fun t input => (malRun sha256 loads limit input t).1) t

/-- The runs all go through, within a stretch of time, and the dub lists change
no flag. -/
def UndisturbedRuns (limit : ℕ) (start stop : Int) : List (MalRunInput Body) → MalFetchTables → Prop
  | [], _ => True
  | input :: rest, t =>
      input.Within start stop ∧
        (ingestRun sha256 loads input.dubs t.dub).2.dubUnionChanged = some 0 ∧
        (malRun sha256 loads limit input t).2.isSome = true ∧
        UndisturbedRuns limit start stop rest (malRun sha256 loads limit input t).1

variable {sha256 loads} {t : MalFetchTables} {start stop : Int} {limit : ℕ}
  {inputs : List (MalRunInput Body)} {malId : Int}

/-- The runs are rounds over the pending ids. -/
theorem pendingIds_malRuns (hspan : stop ≤ start + refetchAfter) (hle : start ≤ stop)
    (hdue : t.NoneDue start stop) (hruns : UndisturbedRuns sha256 loads limit start stop inputs t) :
    (∀ malId, (malRuns sha256 loads limit inputs t).dubbed malId = t.dubbed malId) ∧
      (malRuns sha256 loads limit inputs t).pendingIds stop =
        workRounds limit (inputs.map MalRunInput.fails) (t.pendingIds stop) := by
  induction inputs generalizing t with
  | nil => exact ⟨fun _ => rfl, rfl⟩
  | cons input rest ih =>
      obtain ⟨hwithin, hdubs, hthrough, hrest⟩ := hruns
      obtain ⟨calls, hcalls⟩ := Option.isSome_iff_exists.mp hthrough
      obtain ⟨hdue', hdubbed, hround, -⟩ :=
        pendingIds_malRun hspan hle hwithin hdue hdubs (Prod.ext rfl hcalls)
      obtain ⟨hdubbed', hrounds⟩ := ih hdue' hrest
      rw [malRuns, List.foldl_cons, ← malRuns]
      exact ⟨fun malId => (hdubbed' malId).trans (hdubbed malId), by rw [hrounds, hround]; rfl⟩

/-- **Whose turn comes.**  Where MAL gives no answer for the same anime in every
run, any other pending anime is fetched in the end if and only if fewer of those
have a lesser id than a run asks for. -/
theorem fetched_iff (hspan : stop ≤ start + refetchAfter) (hle : start ≤ stop)
    (hdue : t.NoneDue start stop) (hruns : UndisturbedRuns sha256 loads limit start stop inputs t)
    (fails : Int → Bool) (hfails : ∀ input ∈ inputs, input.fails = fails)
    (hpending : malId ∈ t.pendingIds start) (hanswered : fails malId = false)
    (henough : ((t.pendingIds start).countP fun id => decide (id < malId)) < inputs.length) :
    ((malRuns sha256 loads limit inputs t).cols malId).needsFetch stop = false ↔
      ((t.pendingIds start).countP fun id => fails id && decide (id < malId)) < limit := by
  rw [hdue.pendingIds_eq (Int.le_refl start) hle] at hpending henough ⊢
  obtain ⟨hdubbed, hleft⟩ := pendingIds_malRuns hspan hle hdue hruns
  have hrounds : ∀ round ∈ inputs.map MalRunInput.fails, round = fails := by simpa using hfails
  rw [workRounds_of_forall_eq hrounds, List.length_map] at hleft
  have hnot : ((malRuns sha256 loads limit inputs t).cols malId).needsFetch stop = false ↔
      malId ∉ (malRuns sha256 loads limit inputs t).pendingIds stop := by
    rw [mem_pendingIds_iff, hdubbed, (mem_pendingIds_iff.mp hpending).1]
    simp
  rw [hnot, hleft]
  constructor
  · exact fun hgone => (reached_iff pairwise_pendingIds hpending hanswered).mp ⟨_, hgone⟩
  · intro hfew
    obtain ⟨n, hn, hgone⟩ := exists_notMem_iterate pairwise_pendingIds hpending hanswered hfew
    exact notMem_iterate_of_le (hn.trans henough) hgone

/-- What both lists name, and nothing fetched. -/
def nothingFetched : MalFetchTables where
  dub := (ingestRun digestOf jsonOf bothFetched DubTables.empty).1
  fetch := KeyedTable.empty

/-- A run over the unchanged lists, in which MAL answers for all but some
anime. -/
def runWithout (unanswered : List Int) : MalRunInput String where
  dubs := bothFetched
  listedAt := 20
  turn := fun malId =>
    { variants := if malId ∈ unanswered then [[.failed, .failed], [.rejected]]
      else [[.failed, .data]]
      writtenAt := 30 }

/-- The run lies in its time. -/
theorem within_runWithout (unanswered : List Int) : (runWithout unanswered).Within 0 100 where
  start_le_listed := (by decide : (0 : Int) ≤ 20)
  listed_le_stop := (by decide : (20 : Int) ≤ 100)
  start_le_written := fun _ => (by decide : (0 : Int) ≤ 30)

/-- One anime without an answer leaves room for the others. -/
theorem fetched_iff_oneUnanswered :
    ((malRuns digestOf jsonOf 2
      (List.replicate 3 (runWithout [1])) nothingFetched).cols 5).needsFetch 100 =
      false :=
  (@fetched_iff String digestOf jsonOf nothingFetched 0 100 2 (List.replicate 3 (runWithout [1])) 5
    (by decide) (by decide) (fun _ _ => rfl)
    ⟨within_runWithout _, by decide +kernel, by decide +kernel,
      within_runWithout _, by decide +kernel, by decide +kernel,
      within_runWithout _, by decide +kernel, by decide +kernel, trivial⟩
    (runWithout [1]).fails (fun _ h => congrArg MalRunInput.fails (List.eq_of_mem_replicate h))
    (by decide +kernel) (by decide +kernel) (by decide +kernel)).mpr (by decide +kernel)

/-! ## The backlog -/

variable {cycles : List (MalRunInput Body × Int)}

/-- **What a backlog job leaves** is what rounds leave, as many as it may make:
when it stops early nothing is pending. -/
theorem backlogCycles_eq (hspan : stop ≤ start + refetchAfter) (hle : start ≤ stop)
    (hlimit : 0 < limit)
    (hdue : t.NoneDue start stop)
    (hruns : UndisturbedRuns sha256 loads limit start stop (cycles.map Prod.fst) t)
    (hcounted : ∀ cycle ∈ cycles, start ≤ cycle.2 ∧ cycle.2 ≤ stop) :
    (backlogCycles sha256 loads limit cycles (t.pendingIds stop).length t).2 =
      some (workRounds limit (cycles.map fun cycle => cycle.1.fails)
        (t.pendingIds stop)).length := by
  induction cycles generalizing t with
  | nil => rfl
  | cons cycle rest ih =>
      obtain ⟨input, countedAt⟩ := cycle
      obtain ⟨hwithin, hdubs, hthrough, hrest⟩ := hruns
      obtain ⟨⟨hstart, hstop⟩, hcounted⟩ := List.forall_mem_cons.mp hcounted
      obtain ⟨calls, hcalls⟩ := Option.isSome_iff_exists.mp hthrough
      rw [backlogCycles]
      split
      · next hnone =>
          rw [List.length_eq_zero_iff.mp hnone, workRounds_nil]
      · next hsome =>
          generalize hrun : malRun sha256 loads limit input t = result at hcalls hrest ⊢
          obtain ⟨t', _⟩ := result
          obtain rfl : _ = some calls := hcalls
          obtain ⟨hdue', -, hround, hbatch⟩ := pendingIds_malRun hspan hle hwithin hdue hdubs hrun
          have hasked : calls ≠ 0 := by
            rw [hbatch, List.length_take]
            omega
          dsimp only
          rw [if_neg hasked, countAnimeNeedingMalFetch, hdue'.pendingIds_eq hstart hstop,
            ih hdue' hrest hcounted, hround]
          rfl

/-- The cycles of an import of everything, but two, cover the backlog. -/
theorem le_mul_importAllCycles {pendingBefore batchSize : ℕ} (hbatch : 0 < batchSize)
    (hbound : pendingBefore ≤ 498 * batchSize) :
    pendingBefore ≤ batchSize * (importAllCycles pendingBefore batchSize - 2) := by
  unfold importAllCycles
  split
  · omega
  · have hbatches : pendingBefore ≤ batchSize * ((pendingBefore + batchSize - 1) / batchSize) := by
      have hdiv := Nat.div_add_mod (pendingBefore + batchSize - 1) batchSize
      have hmod := Nat.mod_lt (pendingBefore + batchSize - 1) hbatch
      omega
    obtain hless | hmore := Nat.le_total 500 ((pendingBefore + batchSize - 1) / batchSize + 2)
    · rw [min_eq_left hless, Nat.mul_comm]
      exact hbound
    · rw [min_eq_right hmore, Nat.add_sub_cancel]
      exact hbatches

/-- **An import of everything clears the backlog**: with two cycles more than
the batches that are pending, it ends with nothing left unless more than two
cycles met an anime that MAL gave no answer for, or the batches are so many that
the bound on the cycles counts. -/
theorem backlogCycles_importAll (hspan : stop ≤ start + refetchAfter) (hle : start ≤ stop)
    (hlimit : 0 < limit) (hdue : t.NoneDue start stop)
    (hruns : UndisturbedRuns sha256 loads limit start stop (cycles.map Prod.fst) t)
    (hcounted : ∀ cycle ∈ cycles, start ≤ cycle.2 ∧ cycle.2 ≤ stop)
    (hcycles : cycles.length = importAllCycles (countAnimeNeedingMalFetch start t) limit)
    (hbound : countAnimeNeedingMalFetch start t ≤ 498 * limit)
    (hspoiled :
      spoiledRounds limit (cycles.map fun cycle => cycle.1.fails) (t.pendingIds start) ≤ 2) :
    (backlogCycles sha256 loads limit cycles (countAnimeNeedingMalFetch start t) t).2 = some 0 := by
  unfold countAnimeNeedingMalFetch at hcycles hbound ⊢
  rw [hdue.pendingIds_eq (Int.le_refl start) hle] at hcycles hbound hspoiled ⊢
  rw [backlogCycles_eq hspan hle hlimit hdue hruns hcounted]
  generalize t.pendingIds stop = keys at *
  generalize hrounds : (cycles.map fun cycle => cycle.1.fails) = rounds at *
  have hlength : rounds.length = importAllCycles keys.length limit := by
    rw [← hrounds, List.length_map, hcycles]
  have hleft : (workRounds limit rounds keys).length ≤
      keys.length - limit * (rounds.length - spoiledRounds limit rounds keys) :=
        length_workRounds_le
  have hclean : limit * (importAllCycles keys.length limit - 2) ≤
      limit * (rounds.length - spoiledRounds limit rounds keys) := by
    rw [hlength]
    exact Nat.mul_le_mul_left limit (Nat.sub_le_sub_left hspoiled _)
  have hall := le_mul_importAllCycles hlimit hbound
  exact congrArg some (by omega)

/-- Two cycles in which an anime is not answered for are made up for. -/
theorem backlogCycles_importAll_twoSpoiled :
    (backlogCycles digestOf jsonOf (ingestBatchLimit 2 none)
      [(runWithout [1], 50), (runWithout [1], 50), (runWithout [], 50), (runWithout [], 50)]
      (countAnimeNeedingMalFetch 0 nothingFetched) nothingFetched).2 = some 0 :=
  @backlogCycles_importAll String digestOf jsonOf nothingFetched 0 100 (ingestBatchLimit 2 none) _
    (by decide) (by decide) (ingestBatchLimit_pos 2 none) (fun _ _ => rfl)
    ⟨within_runWithout _, by decide +kernel, by decide +kernel,
      within_runWithout _, by decide +kernel, by decide +kernel,
      within_runWithout _, by decide +kernel, by decide +kernel,
      within_runWithout _, by decide +kernel, by decide +kernel, trivial⟩
    (by decide) (by decide +kernel) (by decide +kernel) (by decide +kernel)

end RunAfterRun

end Nebularr
