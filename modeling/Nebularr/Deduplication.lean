import Nebularr.QueueSafety

/-!
# Deduplication against open jobs

An event whose key is that of an open job is folded into the job: the insert
does nothing.  That loses nothing as long as the job's fetch from Arr is still
to come.  But `retrying` also marks the jobs a pass is working on, so an event
may be folded into a job that has been fetched already; when that attempt
succeeds, nothing that happened after the fetch is ever written
(`folded_event_is_lost`).

`FoldsIntoUnfetched` says when folding is safe.  The ghost sequence numbers of
the acceptances and fetches then give the law: each event has an open job that
will fetch, or one fetched after it was accepted, or a later dead letter.  Of a
job that fetches nothing, such as a delete, the same holds with its write for
the fetch.
-/

namespace Nebularr

section Deduplication

variable {P K : Type}

/-- The job the hook queues for an event. -/
def Acceptance.webhookJob (reading : PayloadReading P K) (e : Acceptance P) : WebhookJob :=
  ⟨e.source, reading.eventType e.payload, reading.fields e.payload⟩

/-- The job as the processor will read it off its row. -/
def QueueRow.webhookJob (reading : PayloadReading P K) (row : QueueRow P K) : WebhookJob :=
  ⟨row.source, row.eventType, reading.fields row.payload⟩

/-- The condition on a step: an event is folded only into a job queued for the
same payload of the same source, and not while an attempt at that job has
started its fetch, or its write if it fetches nothing; and pruning leaves open
jobs alone. -/
def FoldsIntoUnfetched (reading : PayloadReading P K) (w : QueueWorld P K) : QueueAction P → Prop
  | .accept source payload => ∀ id row, w.store.rows.row id = some row →
      row.status.isOpen = true → row.dedupeKey = some (reading.digest payload) →
      (row.source = source ∧ row.eventType = reading.eventType payload ∧ row.payload = payload) ∧
        ∀ q pass attempt, w.passes q = some pass → pass.current = some attempt →
          attempt.job.id = id → attempt.fetchedAt = none
  | .prune keepDays => ∀ id row, w.store.rows.row id = some row → row.status.isOpen = true →
      (pruneOldRows keepDays w.now w.store).rows.row id ≠ none
  | _ => True

/-- The event was processed by an attempt that started its fetch, and ended,
after it was accepted; or it was dead-lettered after that. -/
def Settled (w : QueueWorld P K) (e : Acceptance P) : Prop :=
  (∃ f n, .processed e.payload (some f) n ∈ w.outcomes ∧ e.seq < f ∧ e.seq < n) ∨
    ∃ n, .deadLettered e.payload n ∈ w.outcomes ∧ e.seq < n

/-- The event has not been lost: a job of its payload is open and will fetch
what the event needs, or it is settled. -/
def Represented (reading : PayloadReading P K) (w : QueueWorld P K) (e : Acceptance P) : Prop :=
  (∃ id row, w.store.rows.row id = some row ∧ row.status.isOpen = true ∧
    row.payload = e.payload ∧
    (row.webhookJob reading).fetchesArr = (e.webhookJob reading).fetchesArr) ∨ Settled w e

/-! ## What a step does to the jobs at hand -/

/-- The jobs of a pass. -/
def Pass.jobs (pass : Pass P) : List (ClaimedJob P) :=
  (pass.current.map Attempt.job).toList ++ pass.waiting

theorem Pass.job_mem_jobs {pass : Pass P} {attempt : Attempt P}
    (h : pass.current = some attempt) : attempt.job ∈ pass.jobs := by
  simp [Pass.jobs, h]

/-- The job is the row under its id, as far as the processor reads it. -/
structure ClaimedJob.Matches (job : ClaimedJob P) (row : QueueRow P K) : Prop where
  source : job.source = row.source
  eventType : job.eventType = row.eventType
  payload : job.payload = row.payload

variable {reading : PayloadReading P K} {w w' : QueueWorld P K} {a : QueueAction P}

/-- A row keeps what the processor reads. -/
theorem StepSpec.row_fields (hspec : StepSpec reading w a w') {id : ℕ} {row' : QueueRow P K}
    (h : w'.store.rows.row id = some row') :
    id = w.store.nextId ∨ ∃ row, w.store.rows.row id = some row ∧ row'.source = row.source ∧
      row'.eventType = row.eventType ∧ row'.payload = row.payload := by
  have hchange := hspec.row id
  rw [h] at hchange
  generalize w.store.rows.row id = before at hchange
  cases hchange with
  | same => exact Or.inr ⟨row', rfl, rfl, rfl, rfl⟩
  | inserted hid => exact Or.inl hid
  | claimed => exact Or.inr ⟨_, rfl, rfl, rfl, rfl⟩
  | succeeded => exact Or.inr ⟨_, rfl, rfl, rfl, rfl⟩
  | failed => exact Or.inr ⟨_, rfl, rfl, rfl, rfl⟩
  | requeued => exact Or.inr ⟨_, rfl, rfl, rfl, rfl⟩

/-- A job at hand was at hand before or has just been returned. -/
theorem StepSpec.jobs (hspec : StepSpec reading w a w') {q : ℕ} {pass' : Pass P}
    (hpass' : w'.passes q = some pass') {job : ClaimedJob P} (hjob : job ∈ pass'.jobs) :
    (∃ pass, w.passes q = some pass ∧ job ∈ pass.jobs) ∨
      ∃ row', w'.store.rows.row job.id = some row' ∧ job.Matches row' := by
  have hchange := hspec.pass q
  rw [hpass'] at hchange
  generalize w.passes q = before at hchange
  cases hchange with
  | same => exact Or.inl ⟨pass', rfl, hjob⟩
  | opened => cases hjob
  | claimed hidle =>
      rcases List.mem_append.mp hjob with hcurrent | hreturned
      · exact Or.inl ⟨_, rfl, List.mem_append_left _ hcurrent⟩
      · obtain ⟨-, row', hrow', hsource, htype, hpayload, -⟩ := mem_returnedJobs_iff.mp hreturned
        exact Or.inr ⟨row', hrow', hsource, htype, hpayload⟩
  | begun hcurrent hwaiting =>
      refine Or.inl ⟨_, rfl, ?_⟩
      simpa [Pass.jobs, hcurrent, hwaiting] using hjob
  | fetched hcurrent =>
      refine Or.inl ⟨_, rfl, ?_⟩
      simpa [Pass.jobs, hcurrent] using hjob
  | succeeded hcurrent => exact Or.inl ⟨_, rfl, List.mem_append_right _ hjob⟩
  | failed hcurrent => exact Or.inl ⟨_, rfl, List.mem_append_right _ hjob⟩

/-- A fetch under way was under way before or starts now. -/
theorem StepSpec.fetch (hspec : StepSpec reading w a w') {q f : ℕ} {pass' : Pass P}
    {attempt' : Attempt P} (hpass' : w'.passes q = some pass')
    (hcurrent' : pass'.current = some attempt') (hfetch : attempt'.fetchedAt = some f) :
    f = w.seq ∨ ∃ pass, w.passes q = some pass ∧ pass.current = some attempt' := by
  have hchange := hspec.pass q
  rw [hpass'] at hchange
  generalize w.passes q = before at hchange
  cases hchange with
  | same => exact Or.inr ⟨pass', rfl, hcurrent'⟩
  | opened => cases hcurrent'
  | claimed => exact Or.inr ⟨_, rfl, hcurrent'⟩
  | begun =>
      obtain rfl := Option.some.inj hcurrent'
      cases hfetch
  | fetched =>
      obtain rfl := Option.some.inj hcurrent'
      exact Or.inl (Option.some.inj hfetch).symm
  | succeeded => cases hcurrent'
  | failed => cases hcurrent'

/-! ## The invariant -/

/-- A job of the event is open and every fetch under way for it started after
the event was accepted. -/
def Pending (reading : PayloadReading P K) (w : QueueWorld P K) (e : Acceptance P) : Prop :=
  ∃ id row, w.store.rows.row id = some row ∧ row.status.isOpen = true ∧
    row.payload = e.payload ∧
    (row.webhookJob reading).fetchesArr = (e.webhookJob reading).fetchesArr ∧
    ∀ q pass attempt f, w.passes q = some pass → pass.current = some attempt →
      attempt.job.id = id → attempt.fetchedAt = some f → e.seq < f

/-- The jobs at hand are rows, and no event is lost. -/
structure NothingLost (reading : PayloadReading P K) (w : QueueWorld P K) : Prop where
  id_lt : ∀ q pass, w.passes q = some pass → ∀ job ∈ pass.jobs, job.id < w.store.nextId
  matches_row : ∀ q pass, w.passes q = some pass → ∀ job ∈ pass.jobs, ∀ row,
    w.store.rows.row job.id = some row → job.Matches row
  seq_lt : ∀ e ∈ w.accepted, e.seq < w.seq
  kept : ∀ e ∈ w.accepted, Pending reading w e ∨ Settled w e

theorem Settled.step (hspec : StepSpec reading w a w') {e : Acceptance P}
    (h : Settled w e) : Settled w' e := by
  rcases h with ⟨f, n, hmem, hlate⟩ | ⟨n, hmem, hn⟩
  · exact Or.inl ⟨f, n, hspec.outcomes hmem, hlate⟩
  · exact Or.inr ⟨n, hspec.outcomes hmem, hn⟩

variable [DecidableEq K]

/-- An event keeps its open job, or is settled by the step. -/
theorem pending_step (hinv : NothingLost reading w) (hfold : FoldsIntoUnfetched reading w a)
    (h : w.step reading a = some w') {e : Acceptance P} (he : e ∈ w.accepted)
    (hpending : Pending reading w e) : Pending reading w' e ∨ Settled w' e := by
  have hspec := QueueWorld.step_spec h
  obtain ⟨id, row, hrow, hopen, hpayload, hfetches, hlate⟩ := hpending
  have hlate' : ∀ q pass attempt f, w'.passes q = some pass → pass.current = some attempt →
      attempt.job.id = id → attempt.fetchedAt = some f → e.seq < f := by
    intro q pass' attempt f hpass' hcurrent' hid hfetch
    rcases hspec.fetch hpass' hcurrent' hfetch with rfl | ⟨pass, hpass, hcurrent⟩
    · exact hinv.seq_lt e he
    · exact hlate q pass attempt f hpass hcurrent hid hfetch
  have hchange := hspec.row id
  rw [hrow] at hchange
  generalize hafter : w'.store.rows.row id = after at hchange
  cases hchange with
  | same => exact Or.inl ⟨id, row, hafter, hopen, hpayload, hfetches, hlate'⟩
  | claimed => exact Or.inl ⟨id, _, hafter, rfl, hpayload, hfetches, hlate'⟩
  | requeued => exact Or.inl ⟨id, _, hafter, rfl, hpayload, hfetches, hlate'⟩
  | @succeeded q pass attempt _ hpass hcurrent hid hfetched houtcome =>
      subst hid
      have hmatch := hinv.matches_row q pass hpass _ (Pass.job_mem_jobs hcurrent) row hrow
      obtain ⟨f, hf⟩ := Option.isSome_iff_exists.mp hfetched
      rw [hmatch.payload, hpayload, hf] at houtcome
      exact Or.inr (Or.inl ⟨f, w.seq, houtcome, hlate q pass attempt f hpass hcurrent rfl hf,
        hinv.seq_lt e he⟩)
  | @failed q pass attempt _ _ _ _ hpass hcurrent hid houtcome =>
      subst hid
      have hmatch := hinv.matches_row q pass hpass _ (Pass.job_mem_jobs hcurrent) row hrow
      by_cases hlast : pass.policy.maxAttempts ≤ attempt.job.attempts
      · have hdead := houtcome hlast
        rw [hmatch.payload, hpayload] at hdead
        exact Or.inr (Or.inr ⟨w.seq, hdead, hinv.seq_lt e he⟩)
      · refine Or.inl ⟨_, _, hafter, ?_, hpayload, hfetches, hlate'⟩
        simp [hlast, QueueStatus.isOpen]
  | pruned =>
      obtain rfl := Option.some.inj h
      exact absurd hafter (hfold id row hrow hopen)

/-- A new event gets a job of its own or is folded into one still to be
fetched. -/
theorem pending_accept (hinv : NothingLost reading w) {source : Source} {payload : P}
    (hfold : FoldsIntoUnfetched reading w (.accept source payload))
    (h : w.step reading (.accept source payload) = some w') :
    Pending reading w' ⟨w.seq, source, payload⟩ := by
  obtain rfl := Option.some.inj h
  rcases w.store.insert_cases (queuedRow reading w.now source payload) with
    hinserted | ⟨hsame, -, key, hkey, hmem⟩
  · refine ⟨w.store.nextId, queuedRow reading w.now source payload, ?_, rfl, rfl, rfl, ?_⟩
    · change (enqueueWebhook reading w.now source payload w.store).rows.row w.store.nextId = _
      rw [enqueueWebhook, hinserted, KeyedTable.row_upsert_self, w.store.row_nextId]
      rfl
    · intro q pass attempt f hpass hcurrent hid
      have := hinv.id_lt q pass hpass _ (Pass.job_mem_jobs hcurrent)
      omega
  · obtain rfl := Option.some.inj hkey
    obtain ⟨id, row, hrow, hopen, hdigest⟩ := mem_openKeys_iff.mp hmem
    obtain ⟨⟨hsource, htype, hpayload⟩, hunfetched⟩ := hfold id row hrow hopen hdigest
    refine ⟨id, row, ?_, hopen, hpayload, ?_, ?_⟩
    · change (enqueueWebhook reading w.now source payload w.store).rows.row id = _
      rw [enqueueWebhook, hsame]
      exact hrow
    · rw [QueueRow.webhookJob, hsource, htype, hpayload]
      rfl
    · intro q pass attempt f hpass hcurrent hid hfetch
      rw [hunfetched q pass attempt hpass hcurrent hid] at hfetch
      cases hfetch

theorem nothingLost_step (hinv : NothingLost reading w) (hfold : FoldsIntoUnfetched reading w a)
    (h : w.step reading a = some w') : NothingLost reading w' := by
  have hspec := QueueWorld.step_spec h
  have hold : ∀ q pass', w'.passes q = some pass' → ∀ job ∈ pass'.jobs,
      (∃ pass, w.passes q = some pass ∧ job ∈ pass.jobs ∧ job.id < w.store.nextId) ∨
        ∃ row', w'.store.rows.row job.id = some row' ∧ job.Matches row' := by
    intro q pass' hpass' job hjob
    rcases hspec.jobs hpass' hjob with ⟨pass, hpass, hmem⟩ | hreturned
    · exact Or.inl ⟨pass, hpass, hmem, hinv.id_lt q pass hpass job hmem⟩
    · exact Or.inr hreturned
  refine ⟨?_, ?_, ?_, ?_⟩
  · intro q pass' hpass' job hjob
    rcases hold q pass' hpass' job hjob with ⟨_, _, _, hlt⟩ | ⟨row', hrow', -⟩
    · exact lt_of_lt_of_le hlt hspec.nextId_le
    · exact w'.store.id_lt _ _ hrow'
  · intro q pass' hpass' job hjob row' hrow'
    rcases hold q pass' hpass' job hjob with ⟨pass, hpass, hmem, hlt⟩ | ⟨row, hrow, hmatch⟩
    · rcases hspec.row_fields hrow' with hfresh | ⟨row, hrow, hsource, htype, hpayload⟩
      · omega
      · have hmatch := hinv.matches_row q pass hpass job hmem row hrow
        exact ⟨hmatch.source.trans hsource.symm, hmatch.eventType.trans htype.symm,
          hmatch.payload.trans hpayload.symm⟩
    · obtain rfl := Option.some.inj (hrow.symm.trans hrow')
      exact hmatch
  · intro e he
    rcases hspec.accepted e he with hbefore | ⟨source, payload, -, rfl, hseq⟩
    · exact lt_of_lt_of_le (hinv.seq_lt e hbefore) hspec.seq_le
    · rw [hseq]
      exact Nat.lt_succ_self _
  · intro e he
    rcases hspec.accepted e he with hbefore | ⟨source, payload, rfl, rfl, -⟩
    · rcases hinv.kept e hbefore with hpending | hsettled
      · exact pending_step hinv hfold h hbefore hpending
      · exact Or.inr (hsettled.step hspec)
    · exact Or.inl (pending_accept hinv hfold h)

/-- **Folding loses no event** in any interleaving in which events are folded
only into jobs whose fetch is still to come. -/
theorem folded_events_represented {store : QueueStore P K} {now : ℕ}
    (h : Reaches (QueueWorld.step reading) (FoldsIntoUnfetched reading) (.idle store now) w) :
    ∀ e ∈ w.accepted, Represented reading w e := by
  have hinv : NothingLost reading w := by
    refine h.invariant ?_ ?_
    · exact ⟨fun _ _ hpass => (nomatch hpass), fun _ _ hpass => (nomatch hpass),
        fun _ he => (nomatch he), fun _ he => (nomatch he)⟩
    · intro s a s' hs hfold hstep
      exact nothingLost_step hs hfold hstep
  intro e he
  rcases hinv.kept e he with ⟨id, row, hrow, hopen, hpayload, hfetches, -⟩ | hsettled
  · exact Or.inl ⟨id, row, hrow, hopen, hpayload, hfetches⟩
  · exact Or.inr hsettled

end Deduplication

/-! ## An event folded into a fetched job

Series 1 changes and its event becomes job 1.  A pass takes the job and
fetches.  The series changes again; the event is folded into job 1, which is
then written from the earlier fetch. -/

/-- The second event comes after the fetch. -/
def foldedTooLate : List (QueueAction WebhookPayload) :=
  .accept .sonarr seriesOnePayload :: takeJobOne 0 ++
    [.fetch 0, .accept .sonarr seriesOnePayload, .succeed 0]

/-- The second event. -/
def secondEvent : Acceptance WebhookPayload := ⟨2, .sonarr, seriesOnePayload⟩

theorem folded_event_is_lost :
    ∃ w, Reachable (QueueWorld.step plainReading) emptyQueue w ∧ secondEvent ∈ w.accepted ∧
      ¬ Represented plainReading w secondEvent := by
  have hran : (replay (QueueWorld.step plainReading) foldedTooLate emptyQueue).isSome = true := by
    decide
  obtain ⟨w, hw⟩ := Option.isSome_iff_exists.mp hran
  have haccepted : (replay (QueueWorld.step plainReading) foldedTooLate emptyQueue).map
      QueueWorld.accepted = some [secondEvent, ⟨0, .sonarr, seriesOnePayload⟩] := rfl
  have houtcomes : (replay (QueueWorld.step plainReading) foldedTooLate emptyQueue).map
      QueueWorld.outcomes = some [.processed seriesOnePayload (some 1) 3] := rfl
  have hclosed : (replay (QueueWorld.step plainReading) foldedTooLate emptyQueue).map
      (fun w => w.store.rows.countWhere fun _ row => row.status.isOpen) = some 0 := by decide
  rw [hw] at haccepted houtcomes hclosed
  refine ⟨w, reachable_of_replay hw, ?_, ?_⟩
  · rw [Option.some.inj haccepted]
    exact List.mem_cons_self
  · rintro (⟨id, row, hrow, hopen, -⟩ | ⟨f, n, hmem, hlate, -⟩ | ⟨n, hmem, -⟩)
    · have hcount : 0 < w.store.rows.countWhere fun _ row => row.status.isOpen :=
        KeyedTable.countWhere_pos_iff.mpr ⟨id, row, hrow, hopen⟩
      exact absurd (Option.some.inj hclosed) hcount.ne'
    · rw [Option.some.inj houtcomes, List.mem_singleton] at hmem
      injection hmem with _ hfetch
      obtain rfl := Option.some.inj hfetch
      revert hlate
      decide
    · rw [Option.some.inj houtcomes, List.mem_singleton] at hmem
      cases hmem

/-- The same event folded while the job waits in the pass's batch. -/
theorem folded_event_is_fetched :
    ∃ w : QueueWorld WebhookPayload WebhookPayload, w.accepted.length = 2 ∧
      ∀ e ∈ w.accepted, Represented plainReading w e := by
  have haccepted : Reaches (QueueWorld.step plainReading) (FoldsIntoUnfetched plainReading)
      emptyQueue _ :=
    Reaches.refl.tail (show FoldsIntoUnfetched plainReading _
      (.accept .sonarr seriesOnePayload) from fun _ _ hrow => (nomatch hrow)) rfl
  have hopened := haccepted.tail
    (show FoldsIntoUnfetched plainReading _ (.openPass 0 .sonarr {}) from trivial) rfl
  have hclaimed := hopened.tail
    (show FoldsIntoUnfetched plainReading _ (.claim 0 ∅ [1]) from trivial) rfl
  have hbegun := hclaimed.tail
    (show FoldsIntoUnfetched plainReading _ (.beginJob 0) from trivial) rfl
  have hfolded := hbegun.tail (a := QueueAction.accept .sonarr seriesOnePayload) (by
    intro id row hrow _ _
    have hentry := KeyedTable.row_eq_some_iff.mp hrow
    obtain rfl := eq_of_heq (Sigma.mk.inj (List.mem_singleton.mp hentry)).2
    refine ⟨⟨rfl, rfl, rfl⟩, ?_⟩
    intro q pass attempt hpass hcurrent _
    by_cases hq : q = 0
    · subst hq
      obtain rfl := Option.some.inj hpass
      obtain rfl := Option.some.inj hcurrent
      rfl
    · simp [QueueWorld.setPass, Function.update_of_ne hq, emptyQueue, QueueWorld.idle] at hpass) rfl
  have hfetched := hfolded.tail
    (show FoldsIntoUnfetched plainReading _ (.fetch 0) from trivial) rfl
  have hwritten := hfetched.tail
    (show FoldsIntoUnfetched plainReading _ (.succeed 0) from trivial) rfl
  exact ⟨_, rfl, folded_events_represented hwritten⟩

end Nebularr
