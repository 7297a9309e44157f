import Mathlib.Data.List.Sort
import Mathlib.Data.List.Perm.Basic
import Mathlib.Data.Finset.Basic
import Nebularr.WebhookJobs

/-!
# The webhook queue

The table `app.webhook_queue` and the statements that run on it: enqueue,
claim, the two outcomes, prune, and the operator's replay and requeue.  A
statement that breaks the partial unique index on the keys of open jobs
raises, so a `QueueStore` cannot hold two of them; nor can it hold an id the
sequence has not handed out.

Times are whole seconds.  The JSON payload is left abstract: what the hook and
the processor read off it, and the digest used for deduplication, are a
`PayloadReading`.
-/

namespace Nebularr

/-! ## Rows -/

/-- The `status` column. -/
inductive QueueStatus
  | queued
  | retrying
  | done
  | deadLetter
deriving DecidableEq, Repr

/-- `status in ('queued', 'retrying')`. -/
def QueueStatus.isOpen : QueueStatus → Bool
  | queued | retrying => true
  | done | deadLetter => false

/-- A row of `app.webhook_queue`. -/
structure QueueRow (P K : Type) where
  source : Source
  eventType : String
  payload : P
  dedupeKey : Option K
  status : QueueStatus
  attempts : ℕ
  nextAttemptAt : ℕ
  errorMessage : Option String
  receivedAt : ℕ
  processedAt : Option ℕ

/-- The table, keyed by `id`. -/
abbrev QueueTable (P K : Type) := KeyedTable ℕ (QueueRow P K)

/-- `read_queue_policy`. -/
structure QueuePolicy where
  batchSize : ℕ := 80
  maxAttempts : ℕ := 5
  backoffBaseSeconds : ℕ := 30
  backoffCapSeconds : ℕ := 900

/-- `WEBHOOK_CLAIM_VISIBILITY_SECONDS`. -/
def claimVisibilitySeconds : ℕ := 120

/-- What is read off a payload: `eventType`, the fields the processor looks at,
and the digest that is its dedupe key. -/
structure PayloadReading (P K : Type) where
  eventType : P → String
  fields : P → WebhookPayload
  digest : P → K

/-! ## Stores -/

section Stores

variable {P K : Type}

/-- The keys `uq_webhook_queue_dedupe_open` covers. -/
def openKeys (t : QueueTable P K) : List K :=
  (t.selectWhere fun _ row => row.status.isOpen).filterMap fun pair => pair.2.dedupeKey

variable (P K) in
/-- The table with its sequence. -/
structure QueueStore where
  rows : QueueTable P K
  nextId : ℕ
  id_lt : ∀ id row, rows.row id = some row → id < nextId
  open_unique : (openKeys rows).Nodup

namespace QueueStore

/-- The queue before the first webhook. -/
def empty : QueueStore P K :=
  ⟨KeyedTable.empty, 1, fun _ _ h => (nomatch h), List.nodup_nil⟩

variable (s : QueueStore P K)

/-- No row has the next id. -/
theorem row_nextId : s.rows.row s.nextId = none := by
  rcases hrow : s.rows.row s.nextId with _ | row
  · rfl
  · exact absurd (s.id_lt _ _ hrow) (lt_irrefl _)

/-- `update … set … where p`; `none` when the index refuses it. -/
def updateWhere [DecidableEq K] (p : ℕ → QueueRow P K → Bool)
    (f : QueueRow P K → QueueRow P K) : Option (QueueStore P K) :=
  if hunique : (openKeys (s.rows.updateWhere p f)).Nodup then
    some
      { rows := s.rows.updateWhere p f
        nextId := s.nextId
        id_lt := by
          intro id row hrow
          rw [KeyedTable.row_updateWhere] at hrow
          obtain ⟨old, hold, -⟩ := Option.map_eq_some_iff.mp hrow
          exact s.id_lt id old hold
        open_unique := hunique }
  else none

/-- `delete … where p`. -/
def deleteWhere (p : ℕ → QueueRow P K → Bool) : QueueStore P K where
  rows := s.rows.deleteWhere p
  nextId := s.nextId
  id_lt := by
    intro id row hrow
    rw [KeyedTable.row_deleteWhere] at hrow
    exact s.id_lt id row (Option.filter_eq_some_iff.mp hrow).1
  open_unique := by
    refine s.open_unique.sublist ?_
    exact ((List.filter_sublist.map _).filter _).filterMap _

/-- `insert … on conflict do nothing`; the sequence moves on either way. -/
def insert [DecidableEq K] (row : QueueRow P K) : QueueStore P K :=
  let rows := s.rows.upsert s.nextId row id
  if hunique : (openKeys rows).Nodup then
    { rows := rows
      nextId := s.nextId + 1
      id_lt := by
        intro id r hrow
        by_cases hid : id = s.nextId
        · omega
        · rw [KeyedTable.row_upsert_of_ne hid] at hrow
          have := s.id_lt id r hrow
          omega
      open_unique := hunique }
  else
    { s with
      nextId := s.nextId + 1
      id_lt := fun id r hrow => Nat.lt_succ_of_lt (s.id_lt id r hrow) }

/-- A new row adds its key to the open ones if it is open. -/
theorem openKeys_upsert_nextId [DecidableEq K] (row : QueueRow P K) :
    openKeys (s.rows.upsert s.nextId row id) =
      (if row.status.isOpen then row.dedupeKey.toList else []) ++ openKeys s.rows := by
  rw [openKeys, KeyedTable.selectWhere_upsert_of_new s.row_nextId, List.filterMap_append, openKeys]
  cases row.status.isOpen <;> cases hkey : row.dedupeKey <;> simp [hkey]

end QueueStore

/-- A key is open if a row with it is. -/
theorem mem_openKeys_iff {t : QueueTable P K} {key : K} :
    key ∈ openKeys t ↔
      ∃ id row, t.row id = some row ∧ row.status.isOpen = true ∧ row.dedupeKey = some key := by
  simp only [openKeys, List.mem_filterMap, Prod.exists]
  constructor
  · rintro ⟨id, row, hmem, hkey⟩
    obtain ⟨hrow, hopen⟩ := KeyedTable.mem_selectWhere_iff.mp hmem
    exact ⟨id, row, hrow, hopen, hkey⟩
  · rintro ⟨id, row, hrow, hopen, hkey⟩
    exact ⟨id, row, KeyedTable.mem_selectWhere_iff.mpr ⟨hrow, hopen⟩, hkey⟩

/-- **An insert adds its row**, or an open job has its key already. -/
theorem QueueStore.insert_cases [DecidableEq K] (s : QueueStore P K) (row : QueueRow P K) :
    (s.insert row).rows = s.rows.upsert s.nextId row id ∨
      (s.insert row).rows = s.rows ∧ row.status.isOpen = true ∧
        ∃ key, row.dedupeKey = some key ∧ key ∈ openKeys s.rows := by
  by_cases hunique : (openKeys (s.rows.upsert s.nextId row id)).Nodup
  · left
    simp [insert, hunique]
  · right
    refine ⟨by simp [insert, hunique], ?_⟩
    rw [s.openKeys_upsert_nextId] at hunique
    by_cases hopen : row.status.isOpen = true
    · refine ⟨hopen, ?_⟩
      rcases hkey : row.dedupeKey with _ | key
      · simp [hkey, s.open_unique] at hunique
      · refine ⟨key, rfl, ?_⟩
        by_contra hnew
        simp [hopen, hkey, hnew, s.open_unique] at hunique
    · simp [hopen, s.open_unique] at hunique

/-- The key of a row under the index, if it is open. -/
def QueueRow.openKey (row : QueueRow P K) : Option K :=
  if row.status.isOpen then row.dedupeKey else none

/-- The open keys are those of the rows, in their order. -/
theorem openKeys_eq (t : QueueTable P K) :
    openKeys t = t.rows.entries.filterMap fun e => e.2.openKey := by
  rw [openKeys, KeyedTable.selectWhere]
  induction t.rows.entries with
  | nil => rfl
  | cons e rest ih =>
      rw [List.map_cons, List.filter_cons, List.filterMap_cons, ← ih]
      cases hopen : e.2.status.isOpen <;> cases hkey : e.2.dedupeKey <;>
        simp [QueueRow.openKey, hopen, hkey]

/-- Fewer hits and no other ones. -/
private theorem filterMap_sublist_filterMap {α β : Type} {f g : α → Option β} {l : List α}
    (h : ∀ x ∈ l, f x = none ∨ f x = g x) : (l.filterMap f).Sublist (l.filterMap g) := by
  induction l with
  | nil => exact .slnil
  | cons x rest ih =>
      have hrest := ih fun y hy => h y (List.mem_cons_of_mem _ hy)
      rw [List.filterMap_cons, List.filterMap_cons]
      rcases h x List.mem_cons_self with hnone | hsame
      · rw [hnone]
        cases g x with
        | none => exact hrest
        | some y => exact hrest.cons y
      · rw [hsame]
        cases g x with
        | none => exact hrest
        | some y => exact hrest.cons_cons y

/-- An update that opens no row and changes no key is never refused. -/
theorem QueueStore.updateWhere_isSome [DecidableEq K] (s : QueueStore P K)
    {p : ℕ → QueueRow P K → Bool} {f : QueueRow P K → QueueRow P K}
    (hkeys : ∀ id row, s.rows.row id = some row → p id row = true →
      (f row).openKey = none ∨ (f row).openKey = row.openKey) :
    (s.updateWhere p f).isSome = true := by
  have hsub : (openKeys (s.rows.updateWhere p f)).Sublist (openKeys s.rows) := by
    rw [openKeys_eq, openKeys_eq, KeyedTable.updateWhere, KeyedTable.mapRows, List.filterMap_map]
    apply filterMap_sublist_filterMap
    intro e he
    by_cases hp : p e.1 e.2 = true
    · have hrow := hkeys e.1 e.2 (KeyedTable.row_eq_some_iff.mpr he) hp
      simpa [hp] using hrow
    · exact Or.inr (by simp [hp])
  rw [updateWhere, dif_pos (s.open_unique.sublist hsub)]
  rfl

end Stores

/-! ## Statements -/

/-- A row as `claim_webhook_jobs` returns it. -/
structure ClaimedJob (P : Type) where
  id : ℕ
  source : Source
  eventType : String
  payload : P
  attempts : ℕ

section Statements

variable {P K : Type}

/-- The `where` clause of a claim. -/
def claimable (source : Source) (now : ℕ) (row : QueueRow P K) : Bool :=
  decide (row.source = source) && row.status.isOpen && decide (row.nextAttemptAt ≤ now)

/-- The ids the subquery of a claim selects; `locked` are the rows it skips. -/
def claimIds (source : Source) (batchSize now : ℕ) (locked : Finset ℕ) (t : QueueTable P K) :
    List ℕ :=
  (((t.selectWhere fun id row => claimable source now row && decide (id ∉ locked)).insertionSort
    fun a b => a.2.receivedAt ≤ b.2.receivedAt).take batchSize).map Prod.fst

/-- The `returning` clause of a claim. -/
def returnedJobs (ids : List ℕ) (t : QueueTable P K) : List (ClaimedJob P) :=
  ids.filterMap fun id => (t.row id).map fun row =>
    ⟨id, row.source, row.eventType, row.payload, row.attempts⟩

/-- A claimed id is that of a claimable row. -/
theorem claimable_of_mem_claimIds {source : Source} {batchSize now : ℕ} {locked : Finset ℕ}
    {t : QueueTable P K} {id : ℕ} (h : id ∈ claimIds source batchSize now locked t) :
    ∃ row, t.row id = some row ∧ claimable source now row = true := by
  obtain ⟨⟨id, row⟩, hmem, rfl⟩ := List.mem_map.mp h
  have hselected := (List.mem_insertionSort _).mp (List.mem_of_mem_take hmem)
  obtain ⟨hrow, hp⟩ := KeyedTable.mem_selectWhere_iff.mp hselected
  exact ⟨row, hrow, (Bool.and_eq_true_iff.mp hp).1⟩

/-- No id is claimed twice. -/
theorem nodup_claimIds (source : Source) (batchSize now : ℕ) (locked : Finset ℕ)
    (t : QueueTable P K) : (claimIds source batchSize now locked t).Nodup := by
  have hperm := List.perm_insertionSort (fun a b => a.2.receivedAt ≤ b.2.receivedAt)
    (t.selectWhere fun id row => claimable source now row && decide (id ∉ locked))
  refine List.Nodup.sublist ((List.take_sublist _ _).map Prod.fst) ?_
  exact (hperm.map Prod.fst).nodup_iff.mpr (t.nodup_selectWhere _)

/-- What can be claimed is open. -/
theorem status_isOpen_of_claimable {source : Source} {now : ℕ} {row : QueueRow P K}
    (h : claimable source now row = true) : row.status.isOpen = true := by
  simp only [claimable, Bool.and_eq_true] at h
  exact h.1.2

/-- The jobs returned are those of the ids, in that order. -/
theorem map_id_returnedJobs {ids : List ℕ} {t : QueueTable P K}
    (h : ∀ id ∈ ids, (t.row id).isSome = true) :
    (returnedJobs ids t).map ClaimedJob.id = ids := by
  induction ids with
  | nil => rfl
  | cons id rest ih =>
      obtain ⟨row, hrow⟩ := Option.isSome_iff_exists.mp (h id List.mem_cons_self)
      have hrest := ih fun other hother => h other (List.mem_cons_of_mem _ hother)
      rw [returnedJobs, List.filterMap_cons, hrow]
      exact congrArg (id :: ·) hrest

/-- The jobs returned are the claimed rows, as they are. -/
theorem mem_returnedJobs_iff {ids : List ℕ} {t : QueueTable P K} {job : ClaimedJob P} :
    job ∈ returnedJobs ids t ↔ job.id ∈ ids ∧ ∃ row, t.row job.id = some row ∧
      job.source = row.source ∧ job.eventType = row.eventType ∧ job.payload = row.payload ∧
      job.attempts = row.attempts := by
  simp only [returnedJobs, List.mem_filterMap, Option.map_eq_some_iff]
  constructor
  · rintro ⟨id, hid, row, hrow, rfl⟩
    exact ⟨hid, row, hrow, rfl, rfl, rfl, rfl⟩
  · rintro ⟨hid, row, hrow, hsource, htype, hpayload, hattempts⟩
    refine ⟨job.id, hid, row, hrow, ?_⟩
    rw [← hsource, ← htype, ← hpayload, ← hattempts]

variable [DecidableEq K]

/-- The row `enqueue_webhook` inserts, with the dedupe key of the hook. -/
def queuedRow (reading : PayloadReading P K) (now : ℕ) (source : Source) (payload : P) :
    QueueRow P K where
  source := source
  eventType := reading.eventType payload
  payload := payload
  dedupeKey := some (reading.digest payload)
  status := .queued
  attempts := 0
  nextAttemptAt := now
  errorMessage := none
  receivedAt := now
  processedAt := none

/-- `enqueue_webhook`. -/
def enqueueWebhook (reading : PayloadReading P K) (now : ℕ) (source : Source) (payload : P)
    (s : QueueStore P K) : QueueStore P K :=
  s.insert (queuedRow reading now source payload)

/-- The `update` of `claim_webhook_jobs`. -/
def claimWebhookJobs (now : ℕ) (ids : List ℕ) (s : QueueStore P K) : Option (QueueStore P K) :=
  s.updateWhere (fun id _ => decide (id ∈ ids)) fun row =>
    { row with
      status := .retrying
      attempts := row.attempts + 1
      nextAttemptAt := now + claimVisibilitySeconds }

/-- `mark_webhook_done`. -/
def markWebhookDone (queueId now : ℕ) (s : QueueStore P K) : Option (QueueStore P K) :=
  s.updateWhere (fun id _ => decide (id = queueId)) fun row =>
    { row with status := .done, processedAt := some now, errorMessage := none }

/-- `mark_webhook_failed`. -/
def markWebhookFailed (policy : QueuePolicy) (queueId attempts : ℕ) (errorMessage : String)
    (now : ℕ) (s : QueueStore P K) : Option (QueueStore P K) :=
  s.updateWhere (fun id _ => decide (id = queueId)) fun row =>
    { row with
      status := if policy.maxAttempts ≤ attempts then .deadLetter else .retrying
      nextAttemptAt := now + min (attempts * policy.backoffBaseSeconds) policy.backoffCapSeconds
      errorMessage := some (String.ofList (errorMessage.toList.take 1000)) }

/-- The two queue statements of `prune_old_rows`. -/
def pruneOldRows (keepDays now : ℕ) (s : QueueStore P K) : QueueStore P K :=
  if keepDays = 0 then s
  else
    (s.deleteWhere fun _ row =>
      row.processedAt.any fun time => decide (time + keepDays * 86400 < now)).deleteWhere
        fun _ row =>
        decide (row.status = .deadLetter) && decide (row.receivedAt + keepDays * 86400 < now)

/-- The `update` the operator's endpoints share. -/
def requeueWhere (p : ℕ → QueueRow P K → Bool) (now : ℕ) (s : QueueStore P K) :
    Option (QueueStore P K) :=
  s.updateWhere p fun row =>
    { row with status := .queued, nextAttemptAt := now, errorMessage := none }

/-- The dead letters of a source, which `replay_dead_letter` requeues. -/
def deadLetterOf (source : Source) (row : QueueRow P K) : Bool :=
  decide (row.source = source) && decide (row.status = .deadLetter)

/-- The rows `requeue_webhooks_bulk` requeues. -/
def hasStatus (status : QueueStatus) (source : Option Source) (row : QueueRow P K) : Bool :=
  decide (row.status = status) && source.all fun source => decide (row.source = source)

/-- The row `requeue_webhook_job` requeues. -/
def requeueable (jobId id : ℕ) (row : QueueRow P K) : Bool :=
  decide (id = jobId) && (decide (row.status = .deadLetter) || decide (row.status = .retrying))

/-! ## What the statements do -/

variable {s s' : QueueStore P K}

/-- An update that went through acted row by row. -/
theorem QueueStore.row_of_updateWhere {p : ℕ → QueueRow P K → Bool}
    {f : QueueRow P K → QueueRow P K} (h : s.updateWhere p f = some s') (id : ℕ) :
    s'.rows.row id = (s.rows.row id).map fun row => if p id row then f row else row := by
  unfold updateWhere at h
  split at h
  · obtain rfl := Option.some.inj h
    exact KeyedTable.row_updateWhere p f s.rows id
  · cases h

/-- An update uses up no id. -/
theorem QueueStore.nextId_of_updateWhere {p : ℕ → QueueRow P K → Bool}
    {f : QueueRow P K → QueueRow P K} (h : s.updateWhere p f = some s') :
    s'.nextId = s.nextId := by
  unfold updateWhere at h
  split at h
  · obtain rfl := Option.some.inj h
    rfl
  · cases h

/-- What a claim makes of the rows. -/
theorem row_claimWebhookJobs {now : ℕ} {ids : List ℕ} (h : claimWebhookJobs now ids s = some s')
    (id : ℕ) :
    s'.rows.row id = (s.rows.row id).map fun row =>
      if id ∈ ids then { row with
        status := .retrying
        attempts := row.attempts + 1
        nextAttemptAt := now + claimVisibilitySeconds } else row := by
  rw [QueueStore.row_of_updateWhere h]
  simp

/-- An insert uses up one. -/
theorem QueueStore.nextId_insert (row : QueueRow P K) : (s.insert row).nextId = s.nextId + 1 := by
  by_cases hunique : (openKeys (s.rows.upsert s.nextId row id)).Nodup <;> simp [insert, hunique]

omit [DecidableEq K]

/-- Pruning only takes rows away. -/
theorem row_of_pruneOldRows {s : QueueStore P K} {keepDays now id : ℕ} {row : QueueRow P K}
    (h : (pruneOldRows keepDays now s).rows.row id = some row) : s.rows.row id = some row := by
  unfold pruneOldRows at h
  split at h
  · exact h
  · simp only [QueueStore.deleteWhere, KeyedTable.row_deleteWhere] at h
    exact (Option.filter_eq_some_iff.mp (Option.filter_eq_some_iff.mp h).1).1

/-- Pruning gives no id back. -/
theorem nextId_pruneOldRows (keepDays now : ℕ) (s : QueueStore P K) :
    (pruneOldRows keepDays now s).nextId = s.nextId := by
  unfold pruneOldRows
  split <;> rfl

variable [DecidableEq K]

/-- A claim and a `done` are never refused by the index. -/
theorem claimWebhookJobs_isSome {now : ℕ} {ids : List ℕ}
    (hopen : ∀ id ∈ ids, ∀ row, s.rows.row id = some row → row.status.isOpen = true) :
    (claimWebhookJobs now ids s).isSome = true := by
  apply s.updateWhere_isSome
  intro id row hrow hid
  have hrowOpen := hopen id (of_decide_eq_true hid) row hrow
  exact Or.inr (by simp only [QueueRow.openKey, hrowOpen]; rfl)

/-- An acknowledgement never fails. -/
theorem markWebhookDone_isSome (queueId now : ℕ) :
    (markWebhookDone queueId now s).isSome = true := by
  apply s.updateWhere_isSome
  intro id row hrow hid
  exact Or.inl rfl

end Statements

end Nebularr
