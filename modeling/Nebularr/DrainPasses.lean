import Nebularr.Holdings
import Nebularr.Transitions
import Nebularr.WebhookQueue

/-!
# Drain passes

`process_webhook_queue` runs on the realtime trigger, on two schedules and on
every worker.  A pass claims a batch, then works it off job by job; claim,
`done` and `failed` are transactions of their own, keyed by the job id alone.
The claim pushes `next_attempt_at` two minutes ahead, and that is all that
keeps another pass away from a job that is still held.

`QueueWorld` is the queue, the clock and the passes; each action is one
transaction, one fetch or one operator request.  Whoever claims only jobs that
nobody holds (`ClaimsOnlyFree`) never meets another pass at a job, and no late
outcome reopens a finished one; a claim that does otherwise breaks both
(`expired_batch_processed_twice`).  Passes that acknowledge their batch within
the window are safe (`claimsOnlyFree_of_ackedInWindow`).

The acceptances and outcomes are recorded for the module on deduplication.
-/

namespace Nebularr

/-! ## Passes -/

/-- Processing the job asks Arr for something: not a delete, and for Sonarr one
that names a series. -/
def WebhookJob.fetchesArr (job : WebhookJob) : Bool :=
  !containsWord "delete" job.eventType &&
    match job.source with
    | .sonarr => (job.payload.seriesId.filter (· ≠ 0)).isSome
    | .radarr => true

/-- An integration that is there answers with some client. -/
private theorem integrationByName_cases {α : Type} {clients clients' : String → Option α}
    {inst : String} (h : (clients inst).isSome = (clients' inst).isSome) :
    (∃ e, integrationByName clients inst = .error e ∧ integrationByName clients' inst = .error e) ∨
      ∃ client client', integrationByName clients inst = .ok client ∧
        integrationByName clients' inst = .ok client' := by
  unfold integrationByName
  cases hclient : clients inst with
  | none =>
      rw [hclient, Option.isSome_none] at h
      rw [Option.isSome_eq_false_iff.mp h.symm |> Option.isNone_iff_eq_none.mp]
      exact Or.inl ⟨_, rfl, rfl⟩
  | some client =>
      rw [hclient, Option.isSome_some] at h
      obtain ⟨client', hclient'⟩ := Option.isSome_iff_exists.mp h.symm
      rw [hclient']
      exact Or.inr ⟨client, client', rfl, rfl⟩

/-- A job that fetches nothing is processed the same whatever Arr answers. -/
theorem processWebhookJob_of_not_fetches {clients clients' : Integrations} {tag : WriteTag}
    {job : WebhookJob} {wh : Warehouse} (h : job.fetchesArr = false)
    (hsonarr : ∀ inst, (clients.sonarr inst).isSome = (clients'.sonarr inst).isSome)
    (hradarr : ∀ inst, (clients.radarr inst).isSome = (clients'.radarr inst).isSome) :
    processWebhookJob clients tag job wh = processWebhookJob clients' tag job wh := by
  unfold processWebhookJob WebhookJob.fetchesArr at *
  cases hsource : job.source with
  | sonarr =>
      rw [hsource] at h
      rcases integrationByName_cases (hsonarr job.payload.instance) with
        ⟨e, he, he'⟩ | ⟨client, client', hclient, hclient'⟩
      · simp [processSonarrJob, he, he', bind, Except.bind]
      · cases hdelete : containsWord "delete" job.eventType with
        | true => simp [processSonarrJob, hclient, hclient', hdelete, bind, Except.bind]
        | false =>
            have hnone : job.payload.seriesId.filter (· ≠ 0) = none := by
              rw [hdelete] at h
              exact Option.isNone_iff_eq_none.mp (Option.isSome_eq_false_iff.mp h)
            simp only [processSonarrJob, hclient, hclient', hdelete, hnone, bind, Except.bind]
  | radarr =>
      have hdelete : containsWord "delete" job.eventType = true := by simpa [hsource] using h
      rcases integrationByName_cases (hradarr job.payload.instance) with
        ⟨e, he, he'⟩ | ⟨client, client', hclient, hclient'⟩
      · simp [processRadarrJob, he, he', bind, Except.bind]
      · simp [processRadarrJob, webhookMovies, hclient, hclient', hdelete, bind, Except.bind]

/-- A job in process.  `fetchedAt` is ghost: when its fetch from Arr started, or
its write, if it fetches nothing. -/
structure Attempt (P : Type) where
  job : ClaimedJob P
  fetchedAt : Option ℕ := none

/-- A pass over the queue of one source.  `claimedAt` is ghost. -/
structure Pass (P : Type) where
  source : Source
  policy : QueuePolicy
  rounds : ℕ := 0
  waiting : List (ClaimedJob P) := []
  current : Option (Attempt P) := none
  claimedAt : ℕ := 0

/-- `max_rounds`. -/
def maxRounds : ℕ := 30

/-- The ids of the jobs a pass has claimed and not acknowledged. -/
def Pass.held {P : Type} (pass : Pass P) : List ℕ :=
  (pass.current.map fun attempt => attempt.job.id).toList ++ pass.waiting.map ClaimedJob.id

/-- An accepted webhook event; `seq` orders acceptances and fetches. -/
structure Acceptance (P : Type) where
  seq : ℕ
  source : Source
  payload : P

/-- What became of an attempt, and when. -/
inductive Outcome (P : Type)
  | processed (payload : P) (fetchedAt : Option ℕ) (seq : ℕ)
  | deadLettered (payload : P) (seq : ℕ)

/-- The queue, the clock and the passes.  The last three fields are ghost. -/
structure QueueWorld (P K : Type) where
  store : QueueStore P K
  now : ℕ
  passes : ℕ → Option (Pass P)
  seq : ℕ := 0
  accepted : List (Acceptance P) := []
  outcomes : List (Outcome P) := []

/-- What can happen.  `order` is the order in which a claim returns its rows. -/
inductive QueueAction (P : Type)
  | tick (seconds : ℕ)
  | accept (source : Source) (payload : P)
  | openPass (p : ℕ) (source : Source) (policy : QueuePolicy)
  | claim (p : ℕ) (locked : Finset ℕ) (order : List ℕ)
  | beginJob (p : ℕ)
  | fetch (p : ℕ)
  | succeed (p : ℕ)
  | fail (p : ℕ) (errorMessage : String)
  | leave (p : ℕ)
  | prune (keepDays : ℕ)
  | replayDeadLetter (source : Source)
  | requeueBulk (status : QueueStatus) (source : Option Source)
  | requeueJob (jobId : ℕ)

/-! ## Steps -/

section Steps

variable {P K : Type} [DecidableEq K] (reading : PayloadReading P K)

namespace QueueWorld

/-- Nobody at work. -/
def idle (store : QueueStore P K) (now : ℕ) : QueueWorld P K :=
  ⟨store, now, fun _ => none, 0, [], []⟩

variable (w : QueueWorld P K)

/-- What a pass holds. -/
def held (p : ℕ) : List ℕ := ((w.passes p).map Pass.held).getD []

/-- The job a pass is processing. -/
def processing (p : ℕ) : Option ℕ :=
  ((w.passes p).bind Pass.current).map fun attempt => attempt.job.id

/-- Replace a pass. -/
def setPass (p : ℕ) (pass : Option (Pass P)) : QueueWorld P K :=
  { w with passes := Function.update w.passes p pass }

/-- A claim, between two rounds; an empty batch ends the pass. -/
def claim (p : ℕ) (pass : Pass P) (locked : Finset ℕ) (order : List ℕ) : Option (QueueWorld P K) :=
  if pass.held = [] ∧ pass.rounds < maxRounds ∧
      order.Perm (claimIds pass.source pass.policy.batchSize w.now locked w.store.rows) then
    if order = [] then some (w.setPass p none)
    else
      (claimWebhookJobs w.now order w.store).map fun store =>
        { w with store := store }.setPass p (some
          { pass with
            rounds := pass.rounds + 1
            waiting := returnedJobs order store.rows
            claimedAt := w.now })
  else none

/-- The loop takes the next job of the batch. -/
def beginJob (p : ℕ) (pass : Pass P) : Option (QueueWorld P K) :=
  match pass.current, pass.waiting with
  | none, job :: rest =>
      some (w.setPass p (some { pass with current := some { job := job }, waiting := rest }))
  | _, _ => none

/-- The job's fetch from Arr starts; of a job that fetches nothing, its write. -/
def fetch (p : ℕ) (pass : Pass P) : Option (QueueWorld P K) :=
  match pass.current with
  | some ⟨job, none⟩ =>
      some ({ w with seq := w.seq + 1 }.setPass p
        (some { pass with current := some ⟨job, some w.seq⟩ }))
  | _ => none

/-- The job has been written, after its fetch. -/
def succeed (p : ℕ) (pass : Pass P) : Option (QueueWorld P K) :=
  match pass.current with
  | some attempt =>
      if attempt.fetchedAt.isNone then none
      else
        (markWebhookDone attempt.job.id w.now w.store).map fun store =>
          { w with
            store := store
            outcomes :=
              .processed attempt.job.payload attempt.fetchedAt w.seq :: w.outcomes }.setPass p
                (some { pass with current := none })
  | none => none

/-- The job raised; if recording that raises too, the pass is over. -/
def fail (p : ℕ) (pass : Pass P) (errorMessage : String) : Option (QueueWorld P K) :=
  match pass.current with
  | some attempt =>
      match markWebhookFailed pass.policy attempt.job.id attempt.job.attempts errorMessage w.now
          w.store with
      | some store =>
          some ({ w with
            store := store
            outcomes :=
              if pass.policy.maxAttempts ≤ attempt.job.attempts then
                .deadLettered attempt.job.payload w.seq :: w.outcomes
              else w.outcomes }.setPass p (some { pass with current := none }))
      | none => some (w.setPass p none)
  | none => none

variable (P K) in
/-- What an operator request requeues.  The bulk endpoint takes `retrying` and
`dead_letter` only. -/
def requeued : QueueAction P → Option (ℕ → QueueRow P K → Bool)
  | .replayDeadLetter source => some fun _ row => deadLetterOf source row
  | .requeueBulk status source =>
      if status = .retrying ∨ status = .deadLetter then some fun _ row =>
        hasStatus status source row
      else none
  | .requeueJob jobId => some fun id row => requeueable jobId id row
  | _ => none

/-- **The queue and its passes.**  A pass may leave at any point: it was told
to stop, ran out of rounds, or died. -/
def step : QueueAction P → Option (QueueWorld P K)
  | .tick seconds => some { w with now := w.now + seconds }
  | .accept source payload =>
      some { w with
        store := enqueueWebhook reading w.now source payload w.store
        seq := w.seq + 1
        accepted := ⟨w.seq, source, payload⟩ :: w.accepted }
  | .openPass p source policy =>
      if (w.passes p).isNone then some (w.setPass p (some { source := source, policy := policy }))
      else none
  | .claim p locked order => (w.passes p).bind fun pass => w.claim p pass locked order
  | .beginJob p => (w.passes p).bind fun pass => w.beginJob p pass
  | .fetch p => (w.passes p).bind fun pass => w.fetch p pass
  | .succeed p => (w.passes p).bind fun pass => w.succeed p pass
  | .fail p errorMessage => (w.passes p).bind fun pass => w.fail p pass errorMessage
  | .leave p => (w.passes p).map fun _ => w.setPass p none
  | .prune keepDays => some { w with store := pruneOldRows keepDays w.now w.store }
  | a => (requeued P K a).bind fun rows =>
      (requeueWhere rows w.now w.store).map fun store => { w with store := store }

end QueueWorld

end Steps

/-! ## What a step does -/

section Changes

variable {P K : Type}

/-- What a step can do to the pass `q`. -/
inductive PassChange (w w' : QueueWorld P K) (q : ℕ) :
    QueueAction P → Option (Pass P) → Option (Pass P) → Prop
  | same {a : QueueAction P} {pass : Option (Pass P)} : PassChange w w' q a pass pass
  | left {a : QueueAction P} {pass : Option (Pass P)} : PassChange w w' q a pass none
  | opened {source : Source} {policy : QueuePolicy} :
      PassChange w w' q (.openPass q source policy) none
        (some { source := source, policy := policy })
  | claimed {pass : Pass P} {locked : Finset ℕ} {order : List ℕ} (hidle : pass.held = [])
      (horder : order.Perm
        (claimIds pass.source pass.policy.batchSize w.now locked w.store.rows))
      (hrows : ∀ id, w'.store.rows.row id = (w.store.rows.row id).map fun row =>
        if id ∈ order then { row with
          status := .retrying
          attempts := row.attempts + 1
          nextAttemptAt := w.now + claimVisibilitySeconds } else row)
      (hnow : w'.now = w.now) (hnext : w'.store.nextId = w.store.nextId) :
      PassChange w w' q (.claim q locked order) (some pass) (some
        { pass with
          rounds := pass.rounds + 1
          waiting := returnedJobs order w'.store.rows
          claimedAt := w.now })
  | begun {pass : Pass P} {job : ClaimedJob P} {rest : List (ClaimedJob P)}
      (hcurrent : pass.current = none) (hwaiting : pass.waiting = job :: rest) :
      PassChange w w' q (.beginJob q) (some pass)
        (some { pass with current := some { job := job }, waiting := rest })
  | fetched {pass : Pass P} {job : ClaimedJob P} (hcurrent : pass.current = some ⟨job, none⟩)
      (hseq : w'.seq = w.seq + 1) :
      PassChange w w' q (.fetch q) (some pass)
        (some { pass with current := some ⟨job, some w.seq⟩ })
  | succeeded {pass : Pass P} {attempt : Attempt P} (hcurrent : pass.current = some attempt) :
      PassChange w w' q (.succeed q) (some pass) (some { pass with current := none })
  | failed {pass : Pass P} {attempt : Attempt P} {errorMessage : String}
      (hcurrent : pass.current = some attempt) :
      PassChange w w' q (.fail q errorMessage) (some pass) (some { pass with current := none })

/-- What a step can do to the row `id`. -/
inductive RowChange (reading : PayloadReading P K) (w w' : QueueWorld P K) (id : ℕ) :
    QueueAction P → Option (QueueRow P K) → Option (QueueRow P K) → Prop
  | same {a : QueueAction P} {row : Option (QueueRow P K)} : RowChange reading w w' id a row row
  | inserted {source : Source} {payload : P} {row : QueueRow P K} (hid : id = w.store.nextId)
      (hopen : row.status.isOpen = true) (hsource : row.source = source)
      (htype : row.eventType = reading.eventType payload) (hpayload : row.payload = payload) :
      RowChange reading w w' id (.accept source payload) none (some row)
  | claimed {q : ℕ} {pass : Pass P} {locked : Finset ℕ} {order : List ℕ} {row : QueueRow P K}
      (hid : id ∈ order) (hrow : claimable pass.source w.now row = true) :
      RowChange reading w w' id (.claim q locked order) (some row) (some
        { row with
          status := .retrying
          attempts := row.attempts + 1
          nextAttemptAt := w.now + claimVisibilitySeconds })
  | succeeded {q : ℕ} {pass : Pass P} {attempt : Attempt P} {row : QueueRow P K}
      (hpass : w.passes q = some pass) (hcurrent : pass.current = some attempt)
      (hid : attempt.job.id = id)
      (hfetched : attempt.fetchedAt.isSome = true)
      (houtcome : .processed attempt.job.payload attempt.fetchedAt w.seq ∈ w'.outcomes) :
      RowChange reading w w' id (.succeed q) (some row) (some
        { row with status := .done, processedAt := some w.now, errorMessage := none })
  | failed {q : ℕ} {pass : Pass P} {attempt : Attempt P} {errorMessage : String}
      {row : QueueRow P K} {delay : ℕ} {text : Option String}
      (hpass : w.passes q = some pass) (hcurrent : pass.current = some attempt)
      (hid : attempt.job.id = id)
      (houtcome : pass.policy.maxAttempts ≤ attempt.job.attempts →
        .deadLettered attempt.job.payload w.seq ∈ w'.outcomes) :
      RowChange reading w w' id (.fail q errorMessage) (some row) (some
        { row with
          status :=
            if pass.policy.maxAttempts ≤ attempt.job.attempts then .deadLetter else .retrying
          nextAttemptAt := w.now + delay
          errorMessage := text })
  | pruned {keepDays : ℕ} {row : QueueRow P K} :
      RowChange reading w w' id (.prune keepDays) (some row) none
  | requeued {a : QueueAction P} {rows : ℕ → QueueRow P K → Bool} {row : QueueRow P K}
      (hrequeued : QueueWorld.requeued P K a = some rows) (hrow : rows id row = true) :
      RowChange reading w w' id a (some row) (some
        { row with status := .queued, nextAttemptAt := w.now, errorMessage := none })

variable {reading : PayloadReading P K} {w w' : QueueWorld P K}

/-- Only the pass it is about changes. -/
private theorem passChange_setPass {a : QueueAction P} {p q : ℕ} {pass : Option (Pass P)}
    {v : QueueWorld P K} (hv : v.passes = w.passes)
    (hp : p = q → PassChange w w' q a (w.passes q) pass) :
    PassChange w w' q a (w.passes q) ((v.setPass p pass).passes q) := by
  by_cases hq : p = q
  · subst hq
    simpa [QueueWorld.setPass] using hp rfl
  · have hsame : (v.setPass p pass).passes q = w.passes q := by
      simp [QueueWorld.setPass, Function.update_of_ne (Ne.symm hq), hv]
    rw [hsame]
    exact .same

/-- **What a step does**, field by field. -/
structure StepSpec (reading : PayloadReading P K) (w : QueueWorld P K) (a : QueueAction P)
    (w' : QueueWorld P K) : Prop where
  row : ∀ id, RowChange reading w w' id a (w.store.rows.row id) (w'.store.rows.row id)
  pass : ∀ q, PassChange w w' q a (w.passes q) (w'.passes q)
  nextId_le : w.store.nextId ≤ w'.store.nextId
  now : w'.now = w.now ∨ ∃ seconds, a = .tick seconds ∧ w'.now = w.now + seconds
  seq_le : w.seq ≤ w'.seq
  accepted : ∀ e ∈ w'.accepted, e ∈ w.accepted ∨ ∃ source payload,
    a = .accept source payload ∧ e = ⟨w.seq, source, payload⟩ ∧ w'.seq = w.seq + 1
  outcomes : w.outcomes ⊆ w'.outcomes

variable {a : QueueAction P}

/-- A step that only replaces a pass. -/
private theorem stepSpec_setPass {p : ℕ} {pass : Option (Pass P)} (seq : ℕ) (hseq : w.seq ≤ seq)
    (hp : PassChange w ({ w with seq := seq }.setPass p pass) p a (w.passes p) pass) :
    StepSpec reading w a ({ w with seq := seq }.setPass p pass) where
  row _ := .same
  pass _ := passChange_setPass rfl fun hq => hq ▸ hp
  nextId_le := le_refl _
  now := Or.inl rfl
  seq_le := hseq
  accepted _ he := Or.inl he
  outcomes _ ho := ho

variable [DecidableEq K]

/-- An update that goes through changes the rows it matches. -/
private theorem rowChange_of_updateWhere {p : ℕ → QueueRow P K → Bool}
    {f : QueueRow P K → QueueRow P K} {store : QueueStore P K}
    (h : w.store.updateWhere p f = some store)
    (hchange : ∀ id row, w.store.rows.row id = some row → p id row = true →
      RowChange reading w w' id a (some row) (some (f row))) (id : ℕ) :
    RowChange reading w w' id a (w.store.rows.row id) (store.rows.row id) := by
  rw [QueueStore.row_of_updateWhere h]
  rcases hrow : w.store.rows.row id with _ | row
  · exact .same
  · rw [Option.map_some]
    by_cases hp : p id row = true
    · rw [if_pos hp]
      exact hchange id row hrow hp
    · rw [if_neg hp]
      exact .same

private theorem stepSpec_requeue
    (h : ((QueueWorld.requeued P K a).bind fun rows =>
      (requeueWhere rows w.now w.store).map fun store => { w with store := store }) = some w') :
    StepSpec reading w a w' := by
  obtain ⟨rows, hrows, h⟩ := Option.bind_eq_some_iff.mp h
  obtain ⟨store, hstore, rfl⟩ := Option.map_eq_some_iff.mp h
  have hrow : ∀ id, RowChange reading w { w with store := store } id a (w.store.rows.row id)
      (store.rows.row id) :=
    rowChange_of_updateWhere hstore fun id row _ hrow => .requeued hrows hrow
  exact ⟨hrow, fun _ => .same, (QueueStore.nextId_of_updateWhere hstore).ge, Or.inl rfl,
    le_refl _, fun _ he => Or.inl he, fun _ ho => ho⟩

private theorem stepSpec_claim {p : ℕ} {pass : Pass P} {locked : Finset ℕ} {order : List ℕ}
    (hpass : w.passes p = some pass) (h : w.claim p pass locked order = some w') :
    StepSpec reading w (.claim p locked order) w' := by
  simp only [QueueWorld.claim] at h
  split at h
  · next hclaim =>
      obtain ⟨hidle, -, horder⟩ := hclaim
      split at h
      · obtain rfl := Option.some.inj h
        exact stepSpec_setPass w.seq (le_refl _) .left
      · obtain ⟨store, hstore, rfl⟩ := Option.map_eq_some_iff.mp h
        refine ⟨?_, ?_, (QueueStore.nextId_of_updateWhere hstore).ge, Or.inl rfl, le_refl _,
          fun _ he => Or.inl he, fun _ ho => ho⟩
        · refine rowChange_of_updateWhere hstore ?_
          intro id row hrow hid
          have hmem := of_decide_eq_true hid
          obtain ⟨row', hrow', hclaimable⟩ := claimable_of_mem_claimIds (horder.subset hmem)
          obtain rfl := Option.some.inj (hrow.symm.trans hrow')
          exact .claimed hmem hclaimable
        · intro q
          refine passChange_setPass rfl ?_
          rintro rfl
          rw [hpass]
          exact .claimed hidle horder (row_claimWebhookJobs hstore) rfl
            (QueueStore.nextId_of_updateWhere hstore)
  · cases h

private theorem stepSpec_succeed {p : ℕ} {pass : Pass P} (hpass : w.passes p = some pass)
    (h : w.succeed p pass = some w') : StepSpec reading w (.succeed p) w' := by
  simp only [QueueWorld.succeed] at h
  split at h
  · next attempt hcurrent =>
      split at h
      · cases h
      · next hfetched =>
          obtain ⟨store, hstore, rfl⟩ := Option.map_eq_some_iff.mp h
          refine ⟨?_, ?_, (QueueStore.nextId_of_updateWhere hstore).ge, Or.inl rfl, le_refl _,
            fun _ he => Or.inl he, fun _ ho => List.mem_cons_of_mem _ ho⟩
          · refine rowChange_of_updateWhere hstore ?_
            intro id row hrow hid
            exact .succeeded hpass hcurrent (of_decide_eq_true hid).symm
              (Option.isSome_iff_ne_none.mpr (by simpa using hfetched)) List.mem_cons_self
          · intro q
            refine passChange_setPass rfl ?_
            rintro rfl
            rw [hpass]
            exact .succeeded hcurrent
  · cases h

private theorem stepSpec_fail {p : ℕ} {pass : Pass P} {errorMessage : String}
    (hpass : w.passes p = some pass) (h : w.fail p pass errorMessage = some w') :
    StepSpec reading w (.fail p errorMessage) w' := by
  simp only [QueueWorld.fail] at h
  split at h
  · next attempt hcurrent =>
      split at h
      · next store hstore =>
          obtain rfl := Option.some.inj h
          refine ⟨?_, ?_, (QueueStore.nextId_of_updateWhere hstore).ge, Or.inl rfl, le_refl _,
            fun _ he => Or.inl he, ?_⟩
          · refine rowChange_of_updateWhere hstore ?_
            intro id row hrow hid
            refine .failed hpass hcurrent (of_decide_eq_true hid).symm ?_
            intro hlast
            simp [QueueWorld.setPass, hlast]
          · intro q
            refine passChange_setPass rfl ?_
            rintro rfl
            rw [hpass]
            exact .failed hcurrent
          · intro o ho
            simp only [QueueWorld.setPass]
            split
            · exact List.mem_cons_of_mem _ ho
            · exact ho
      · obtain rfl := Option.some.inj h
        exact stepSpec_setPass w.seq (le_refl _) .left
  · cases h

omit [DecidableEq K] in
private theorem stepSpec_prune (keepDays : ℕ) :
    StepSpec reading w (.prune keepDays)
      { w with store := pruneOldRows keepDays w.now w.store } := by
  refine ⟨?_, fun _ => .same, ?_, Or.inl rfl, le_refl _, fun _ he => Or.inl he, fun _ ho => ho⟩
  · intro id
    rcases hafter : (pruneOldRows keepDays w.now w.store).rows.row id with _ | row
    · cases w.store.rows.row id with
      | none => exact .same
      | some row => exact .pruned
    · rw [row_of_pruneOldRows hafter]
      exact .same
  · exact (nextId_pruneOldRows keepDays w.now w.store).ge

theorem QueueWorld.step_spec (h : w.step reading a = some w') : StepSpec reading w a w' := by
  cases a with
  | tick seconds =>
      obtain rfl := Option.some.inj h
      exact ⟨fun _ => .same, fun _ => .same, le_refl _, Or.inr ⟨seconds, rfl, rfl⟩, le_refl _,
        fun _ he => Or.inl he, fun _ ho => ho⟩
  | accept source payload =>
      obtain rfl := Option.some.inj h
      refine ⟨?_, fun _ => .same, ?_, Or.inl rfl, Nat.le_succ _, ?_, fun _ ho => ho⟩
      · intro id
        change RowChange reading w _ id _ _ ((enqueueWebhook reading w.now source payload
          w.store).rows.row id)
        rcases w.store.insert_cases _ with hinserted | ⟨hsame, -⟩
        · rw [enqueueWebhook, hinserted]
          by_cases hid : id = w.store.nextId
          · subst hid
            rw [w.store.row_nextId, KeyedTable.row_upsert_self, w.store.row_nextId]
            exact .inserted rfl rfl rfl rfl rfl
          · rw [KeyedTable.row_upsert_of_ne hid]
            exact .same
        · rw [enqueueWebhook, hsame]
          exact .same
      · rw [enqueueWebhook, QueueStore.nextId_insert]
        exact Nat.le_succ _
      · intro e he
        rcases List.mem_cons.mp he with rfl | hold
        · exact Or.inr ⟨source, payload, rfl, rfl, rfl⟩
        · exact Or.inl hold
  | openPass p source policy =>
      simp only [step] at h
      split at h
      · next hnone =>
          obtain rfl := Option.some.inj h
          refine stepSpec_setPass w.seq (le_refl _) ?_
          rw [Option.isNone_iff_eq_none.mp hnone]
          exact .opened
      · cases h
  | claim p locked order =>
      obtain ⟨pass, hpass, h⟩ := Option.bind_eq_some_iff.mp h
      exact stepSpec_claim hpass h
  | beginJob p =>
      obtain ⟨pass, hpass, h⟩ := Option.bind_eq_some_iff.mp h
      simp only [beginJob] at h
      split at h
      · next job rest hcurrent hwaiting =>
          obtain rfl := Option.some.inj h
          refine stepSpec_setPass w.seq (le_refl _) ?_
          rw [hpass]
          exact .begun hcurrent hwaiting
      · cases h
  | fetch p =>
      obtain ⟨pass, hpass, h⟩ := Option.bind_eq_some_iff.mp h
      simp only [fetch] at h
      split at h
      · next job hcurrent =>
          obtain rfl := Option.some.inj h
          refine stepSpec_setPass (w.seq + 1) (Nat.le_succ _) ?_
          rw [hpass]
          exact .fetched hcurrent rfl
      · cases h
  | succeed p =>
      obtain ⟨pass, hpass, h⟩ := Option.bind_eq_some_iff.mp h
      exact stepSpec_succeed hpass h
  | fail p errorMessage =>
      obtain ⟨pass, hpass, h⟩ := Option.bind_eq_some_iff.mp h
      exact stepSpec_fail hpass h
  | leave p =>
      obtain ⟨pass, hpass, rfl⟩ := Option.map_eq_some_iff.mp h
      exact stepSpec_setPass w.seq (le_refl _) .left
  | prune keepDays =>
      obtain rfl := Option.some.inj h
      exact stepSpec_prune keepDays
  | replayDeadLetter source => exact stepSpec_requeue (a := .replayDeadLetter source) h
  | requeueBulk status source => exact stepSpec_requeue h
  | requeueJob jobId => exact stepSpec_requeue (a := .requeueJob jobId) h

end Changes

end Nebularr
