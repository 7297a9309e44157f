import Nebularr.QueueSafety

/-!
# Requeue and replay

The operator's endpoints turn dead letters and stuck jobs back into queued
ones with one `update`.  Dead letters are outside the unique index on the keys
of open jobs, so an event may have died, been sent again and died again, or be
queued anew while its dead letter is still there.  The `update` then moves two
rows of one key into the index, and fails as a whole.

`requeue_wellFormed_iff` says which requests go through.
-/

namespace Nebularr

section Requeue

variable {P K : Type}

/-- The request asks for the row. -/
def QueueAction.AsksFor (a : QueueAction P) (id : ℕ) (row : QueueRow P K) : Prop :=
  ∃ rows, QueueWorld.requeued P K a = some rows ∧ rows id row = true

/-- At most one open job a key. -/
def OneOpenPerKey (s : QueueStore P K) : Prop :=
  ∀ id row id' row' key, s.rows.row id = some row → s.rows.row id' = some row' →
    row.status.isOpen = true → row'.status.isOpen = true →
      row.dedupeKey = some key → row'.dedupeKey = some key → id = id'

/-- The request goes through, leaves one open job a key at most, and every job
it asked for has an open job with its key. -/
def RequeueWellFormed [DecidableEq K] (reading : PayloadReading P K) (w : QueueWorld P K)
    (a : QueueAction P) : Prop :=
  ∃ w', w.step reading a = some w' ∧ OneOpenPerKey w'.store ∧
    ∀ id row, w.store.rows.row id = some row → a.AsksFor id row →
      ∃ id' row', w'.store.rows.row id' = some row' ∧ row'.status.isOpen = true ∧
        row'.dedupeKey = row.dedupeKey

/-- No job asked for has its key in common with another one asked for, or with
one that is open. -/
def NoKeyClash (s : QueueStore P K) (a : QueueAction P) : Prop :=
  ∀ id row id' row' key, s.rows.row id = some row → s.rows.row id' = some row' →
    a.AsksFor id row → (a.AsksFor id' row' ∨ row'.status.isOpen = true) →
      row.dedupeKey = some key → row'.dedupeKey = some key → id = id'

/-- The open key of a row is its key while it is open. -/
theorem QueueRow.openKey_eq_some_iff {row : QueueRow P K} {key : K} :
    row.openKey = some key ↔ row.status.isOpen = true ∧ row.dedupeKey = some key := by
  unfold QueueRow.openKey
  cases row.status.isOpen <;> simp

/-- What the index says about a table. -/
theorem openKeys_nodup_iff (t : QueueTable P K) :
    (openKeys t).Nodup ↔ ∀ id row id' row' key, t.row id = some row → t.row id' = some row' →
      row.openKey = some key → row'.openKey = some key → id = id' := by
  rw [openKeys_eq]
  exact KeyedTable.nodup_index_iff QueueRow.openKey t

/-- The index is there in every store. -/
theorem QueueStore.oneOpenPerKey (s : QueueStore P K) : OneOpenPerKey s := by
  intro id row id' row' key hrow hrow' hopen hopen' hkey hkey'
  exact (openKeys_nodup_iff s.rows).mp s.open_unique id row id' row' key hrow hrow'
    (QueueRow.openKey_eq_some_iff.mpr ⟨hopen, hkey⟩)
    (QueueRow.openKey_eq_some_iff.mpr ⟨hopen', hkey'⟩)

variable [DecidableEq K] {s s' : QueueStore P K} {rows : ℕ → QueueRow P K → Bool} {now : ℕ}

/-- A row after the `update`: queued when it was asked for. -/
theorem row_of_requeueWhere (h : requeueWhere rows now s = some s') (id : ℕ) :
    s'.rows.row id = (s.rows.row id).map fun row =>
      if rows id row then { row with status := .queued, nextAttemptAt := now, errorMessage := none }
      else row :=
  QueueStore.row_of_updateWhere h id

/-- The `update` is refused exactly when two keys would meet. -/
theorem requeueWhere_isSome_iff :
    (requeueWhere rows now s).isSome = true ↔
      ∀ id row id' row' key, s.rows.row id = some row → s.rows.row id' = some row' →
        rows id row = true → (rows id' row' = true ∨ row'.status.isOpen = true) →
          row.dedupeKey = some key → row'.dedupeKey = some key → id = id' := by
  have hafter : ∀ id row, (rows id row = true ∨ row.status.isOpen = true) ∧
      s.rows.row id = some row → ∃ after, (s.rows.updateWhere rows fun row =>
        { row with status := .queued, nextAttemptAt := now, errorMessage := none }).row id =
          some after ∧ after.status.isOpen = true ∧ after.dedupeKey = row.dedupeKey := by
    rintro id row ⟨hopen, hrow⟩
    rw [KeyedTable.row_updateWhere, hrow, Option.map_some]
    refine ⟨_, rfl, ?_⟩
    by_cases hasked : rows id row = true
    · rw [if_pos hasked]
      exact ⟨rfl, rfl⟩
    · rw [if_neg hasked]
      exact ⟨hopen.resolve_left hasked, rfl⟩
  unfold requeueWhere QueueStore.updateWhere
  constructor
  · intro h id row id' row' key hrow hrow' hasked hother hkey hkey'
    split at h
    · next hunique =>
        obtain ⟨after, hget, hopen, hsame⟩ := hafter id row ⟨Or.inl hasked, hrow⟩
        obtain ⟨after', hget', hopen', hsame'⟩ := hafter id' row' ⟨hother, hrow'⟩
        exact (openKeys_nodup_iff _).mp hunique id after id' after' key hget hget'
          (QueueRow.openKey_eq_some_iff.mpr ⟨hopen, hsame.trans hkey⟩)
          (QueueRow.openKey_eq_some_iff.mpr ⟨hopen', hsame'.trans hkey'⟩)
    · cases h
  · intro hclash
    rw [dif_pos]
    · rfl
    · rw [openKeys_nodup_iff]
      intro id after id' after' key hget hget' hopenKey hopenKey'
      obtain ⟨hopen, hkey⟩ := QueueRow.openKey_eq_some_iff.mp hopenKey
      obtain ⟨hopen', hkey'⟩ := QueueRow.openKey_eq_some_iff.mp hopenKey'
      rw [KeyedTable.row_updateWhere, Option.map_eq_some_iff] at hget hget'
      obtain ⟨row, hrow, rfl⟩ := hget
      obtain ⟨row', hrow', rfl⟩ := hget'
      have hsame : row.dedupeKey = some key := by
        by_cases hasked : rows id row = true <;> simpa [hasked] using hkey
      have hsame' : row'.dedupeKey = some key := by
        by_cases hasked' : rows id' row' = true <;> simpa [hasked'] using hkey'
      by_cases hasked : rows id row = true
      · refine hclash id row id' row' key hrow hrow' hasked ?_ hsame hsame'
        by_cases hasked' : rows id' row' = true
        · exact Or.inl hasked'
        · exact Or.inr (by simpa [hasked'] using hopen')
      · have hrowOpen : row.status.isOpen = true := by simpa [hasked] using hopen
        by_cases hasked' : rows id' row' = true
        · exact (hclash id' row' id row key hrow' hrow hasked' (Or.inr hrowOpen) hsame'
            hsame).symm
        · have hrowOpen' : row'.status.isOpen = true := by simpa [hasked'] using hopen'
          exact s.oneOpenPerKey id row id' row' key hrow hrow' hrowOpen hrowOpen' hsame hsame'

/-- An operator request is one `update`. -/
theorem QueueWorld.step_of_requeued {reading : PayloadReading P K} {w : QueueWorld P K}
    {a : QueueAction P} (h : QueueWorld.requeued P K a = some rows) :
    w.step reading a = (requeueWhere rows w.now w.store).map fun store =>
      { w with store := store } := by
  cases a with
  | replayDeadLetter source => simp only [step, h, Option.bind_some]
  | requeueBulk status source => simp only [step, h, Option.bind_some]
  | requeueJob jobId => simp only [step, h, Option.bind_some]
  | _ => cases h

omit [DecidableEq K] in
/-- A request asks for the rows its `update` names. -/
theorem QueueAction.asksFor_iff {a : QueueAction P} (h : QueueWorld.requeued P K a = some rows)
    (id : ℕ) (row : QueueRow P K) : a.AsksFor id row ↔ rows id row = true := by
  simp [QueueAction.AsksFor, h]

/-- The key index lets the `update` through when no keys clash. -/
theorem noKeyClash_iff {a : QueueAction P} (h : QueueWorld.requeued P K a = some rows)
    (s : QueueStore P K) (now : ℕ) :
    NoKeyClash s a ↔ (requeueWhere rows now s).isSome = true := by
  rw [requeueWhere_isSome_iff]
  simp only [NoKeyClash, QueueAction.asksFor_iff h]

/-- Without a clash, the jobs asked for are the open ones of their keys. -/
theorem NoKeyClash.wellFormed {w : QueueWorld P K} {a : QueueAction P}
    (hclash : NoKeyClash w.store a) (reading : PayloadReading P K)
    (ha : (QueueWorld.requeued P K a).isSome = true) : RequeueWellFormed reading w a := by
  obtain ⟨rows, hrows⟩ := Option.isSome_iff_exists.mp ha
  obtain ⟨store, hstore⟩ := Option.isSome_iff_exists.mp ((noKeyClash_iff hrows _ w.now).mp hclash)
  refine ⟨{ w with store := store }, ?_, store.oneOpenPerKey, ?_⟩
  · rw [QueueWorld.step_of_requeued hrows, hstore, Option.map_some]
  · intro id row hrow hask
    have hafter := row_of_requeueWhere hstore id
    rw [hrow, Option.map_some, if_pos ((QueueAction.asksFor_iff hrows id row).mp hask)] at hafter
    exact ⟨id, _, hafter, rfl, rfl⟩

/-- **Which operator requests go through.**  In every state of the queue, a
replay, a bulk requeue or the requeue of a job does what it is asked for if and
only if none of the jobs it asks for shares its key with another one of them,
or with an open job. -/
theorem requeue_wellFormed_iff (reading : PayloadReading P K) (w : QueueWorld P K)
    {a : QueueAction P} (ha : (QueueWorld.requeued P K a).isSome = true) :
    RequeueWellFormed reading w a ↔ NoKeyClash w.store a := by
  constructor
  · rintro ⟨w', hstep, -, -⟩
    obtain ⟨rows, hrows⟩ := Option.isSome_iff_exists.mp ha
    rw [QueueWorld.step_of_requeued hrows] at hstep
    obtain ⟨store, hstore, -⟩ := Option.map_eq_some_iff.mp hstep
    rw [noKeyClash_iff hrows _ w.now, hstore]
    rfl
  · intro hclash
    exact hclash.wellFormed reading ha

/-- The keys of all rows, open or not. -/
def dedupeKeys (t : QueueTable P K) : List K :=
  t.rows.entries.filterMap fun e => e.2.dedupeKey

omit [DecidableEq K] in
/-- Where no two rows share a key, none of those asked for does. -/
theorem noKeyClash_of_nodup {store : QueueStore P K} (h : (dedupeKeys store.rows).Nodup)
    (a : QueueAction P) : NoKeyClash store a := by
  intro id row id' row' key hrow hrow' _ _ hkey hkey'
  exact (KeyedTable.nodup_index_iff QueueRow.dedupeKey store.rows).mp h id row id' row' key hrow
    hrow' hkey hkey'

/-- A request for jobs that are open anyway is never refused: `retrying` in
bulk, or one `retrying` job. -/
theorem requeue_open_wellFormed (reading : PayloadReading P K) (w : QueueWorld P K)
    {a : QueueAction P} (ha : (QueueWorld.requeued P K a).isSome = true)
    (hopen : ∀ id row, w.store.rows.row id = some row → a.AsksFor id row →
      row.status.isOpen = true) : RequeueWellFormed reading w a := by
  refine NoKeyClash.wellFormed ?_ reading ha
  intro id row id' row' key hrow hrow' hask hother hkey hkey'
  have hopen' : row'.status.isOpen = true := hother.elim (hopen id' row' hrow') fun h => h
  exact w.store.oneOpenPerKey id row id' row' key hrow hrow' (hopen id row hrow hask) hopen'
    hkey hkey'

end Requeue

/-! ### A dead letter and its successor

Job 1 dies at its only attempt.  The event comes again and becomes job 2, and
the operator asks for job 1. -/

/-- Job 1 is a dead letter, job 2 is queued, and both are the same event. -/
def deadThenQueued : List (QueueAction WebhookPayload) :=
  [.accept .sonarr seriesOnePayload, .openPass 0 .sonarr { maxAttempts := 1 }, .claim 0 ∅ [1],
    .beginJob 0, .fail 0 "timeout", .accept .sonarr seriesOnePayload]

theorem successor_blocks_requeue :
    ∃ w, Reachable (QueueWorld.step plainReading) emptyQueue w ∧
      (w.store.rows.row 1).map QueueRow.status = some .deadLetter ∧
      ∀ a ∈ [QueueAction.requeueJob 1, .replayDeadLetter .sonarr, .requeueBulk .deadLetter none],
        ¬ RequeueWellFormed plainReading w a := by
  have hdead : (replay (QueueWorld.step plainReading) deadThenQueued emptyQueue).bind
      (fun w => (w.store.rows.row 1).map QueueRow.status) = some .deadLetter := by decide
  have hrefused : (replay (QueueWorld.step plainReading) deadThenQueued emptyQueue).map
      (fun w => [QueueAction.requeueJob 1, .replayDeadLetter .sonarr,
        .requeueBulk .deadLetter none].all fun a => (w.step plainReading a).isNone) =
      some true := by decide
  obtain ⟨w, hrun, hstatus⟩ := Option.bind_eq_some_iff.mp hdead
  rw [hrun, Option.map_some, Option.some.injEq, List.all_eq_true] at hrefused
  refine ⟨w, reachable_of_replay hrun, hstatus, ?_⟩
  rintro a ha ⟨w', hstep, -, -⟩
  have hnone := hrefused a ha
  rw [hstep] at hnone
  cases hnone

/-- Two events die, and a third one is queued. -/
def twoDeadOneQueued : List (QueueAction WebhookPayload) :=
  [.accept .sonarr seriesOnePayload, .accept .radarr { movieId := some 5 },
    .openPass 0 .sonarr { maxAttempts := 1 }, .claim 0 ∅ [1], .beginJob 0, .fail 0 "timeout",
    .openPass 1 .radarr { maxAttempts := 1 }, .claim 1 ∅ [2], .beginJob 1, .fail 1 "timeout",
    .accept .sonarr { seriesId := some 2 }]

/-- Whatever the operator asks for goes through. -/
theorem two_dead_letters_requeued :
    ∃ w, replay (QueueWorld.step plainReading) twoDeadOneQueued emptyQueue = some w ∧
      [1, 2, 3].map (fun id => (w.store.rows.row id).map QueueRow.status) =
        [some .deadLetter, some .deadLetter, some .queued] ∧
      ∀ a ∈ [QueueAction.requeueJob 1, .replayDeadLetter .radarr, .requeueBulk .deadLetter none],
        RequeueWellFormed plainReading w a := by
  have hran : (replay (QueueWorld.step plainReading) twoDeadOneQueued emptyQueue).map (fun w =>
      ([1, 2, 3].map (fun id => (w.store.rows.row id).map QueueRow.status),
        decide (dedupeKeys w.store.rows).Nodup)) =
      some ([some .deadLetter, some .deadLetter, some .queued], true) := by decide
  obtain ⟨w, hw, hfields⟩ := Option.map_eq_some_iff.mp hran
  obtain ⟨hstatus, hkeys⟩ := Prod.mk.inj hfields
  refine ⟨w, hw, hstatus, ?_⟩
  intro a ha
  have hrequest : (QueueWorld.requeued WebhookPayload WebhookPayload a).isSome = true := by
    revert a
    decide
  exact (requeue_wellFormed_iff plainReading w hrequest).mpr
    (noKeyClash_of_nodup (of_decide_eq_true hkeys) a)

end Nebularr
