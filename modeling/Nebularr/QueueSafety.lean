import Nebularr.DrainPasses

/-!
# One processor per job, and `done` for good

The jobs the passes hold are `Exclusive` as long as claims take free jobs
only; then a held job is open, an outcome goes to the one pass that holds the
job, and a finished job is out of everybody's reach.

Two passes meet at a job when the first has held its batch past the window:
the second claims it, and the later of the two outcomes stands.
-/

namespace Nebularr

section Safety

variable {P K : Type}

/-- The condition on a step: a claim takes only jobs no pass still holds. -/
def ClaimsOnlyFree (w : QueueWorld P K) : QueueAction P → Prop
  | .claim _ _ order => ∀ id ∈ order, ∀ q, id ∉ w.held q
  | _ => True

/-- No two passes are processing one job. -/
def SingleProcessor (w : QueueWorld P K) : Prop :=
  ∀ p q id, w.processing p = some id → w.processing q = some id → p = q

/-- A job that is done in `w` is done in `w'`, if it has not been pruned. -/
def DoneStays (w w' : QueueWorld P K) : Prop :=
  ∀ id row row', w.store.rows.row id = some row → row.status = .done →
    w'.store.rows.row id = some row' → row'.status = .done

/-! ## Holdings -/

namespace QueueWorld

variable {w w' : QueueWorld P K}

/-- What a pass holds, by the pass. -/
theorem held_of_pass {q : ℕ} {pass : Pass P} (h : w.passes q = some pass) :
    w.held q = pass.held := by
  rw [held, h]
  rfl

/-- A job is held by a pass that there is. -/
theorem mem_held_iff {q id : ℕ} :
    id ∈ w.held q ↔ ∃ pass, w.passes q = some pass ∧ id ∈ pass.held := by
  rw [held]
  cases w.passes q <;> simp

/-- The job that is being processed is held. -/
theorem mem_held_of_current {q : ℕ} {pass : Pass P} {attempt : Attempt P}
    (hpass : w.passes q = some pass) (hcurrent : pass.current = some attempt) :
    attempt.job.id ∈ w.held q := by
  rw [held_of_pass hpass]
  simp [Pass.held, hcurrent]

/-- A job that a pass is processing is held by it. -/
theorem mem_held_of_processing {q id : ℕ} (h : w.processing q = some id) : id ∈ w.held q := by
  obtain ⟨attempt, hattempt, rfl⟩ := Option.map_eq_some_iff.mp h
  obtain ⟨pass, hpass, hcurrent⟩ := Option.bind_eq_some_iff.mp hattempt
  exact mem_held_of_current hpass hcurrent

variable [DecidableEq K] {reading : PayloadReading P K} {a : QueueAction P}

/-- **What a pass holds after a step**: what it held, or less, or a batch it
has just claimed. -/
theorem step_holdings (h : w.step reading a = some w') {q : ℕ} {pass' : Pass P}
    (hpass' : w'.passes q = some pass') :
    pass'.held = [] ∨
      (∃ pass, w.passes q = some pass ∧ pass'.held.Sublist pass.held ∧
        pass'.claimedAt = pass.claimedAt) ∨
      ∃ locked order, a = .claim q locked order ∧ pass'.held = order ∧ order.Nodup ∧
        pass'.claimedAt = w.now ∧ w'.now = w.now ∧ w'.store.nextId = w.store.nextId ∧
        ∀ id ∈ order, ∃ source row, w.store.rows.row id = some row ∧
          claimable source w.now row = true ∧
          ∀ row', w'.store.rows.row id = some row' → row'.status = .retrying ∧
            row'.nextAttemptAt = w.now + claimVisibilitySeconds := by
  have hchange := (step_spec h).pass q
  rw [hpass'] at hchange
  generalize w.passes q = before at hchange
  cases hchange with
  | same => exact Or.inr (Or.inl ⟨pass', rfl, .refl _, rfl⟩)
  | opened => exact Or.inl rfl
  | @claimed pass locked order hidle horder hrows hnow hnext =>
      have hcurrent : pass.current = none := by
        cases hcurrent : pass.current with
        | none => rfl
        | some attempt => simp [Pass.held, hcurrent] at hidle
      have hselected : ∀ id ∈ order, ∃ row, w.store.rows.row id = some row ∧
          claimable pass.source w.now row = true :=
        fun id hid => claimable_of_mem_claimIds (horder.subset hid)
      have hexists : ∀ id ∈ order, (w'.store.rows.row id).isSome = true := by
        intro id hid
        obtain ⟨row, hrow, -⟩ := hselected id hid
        simp [hrows, hrow]
      refine Or.inr (Or.inr ⟨locked, order, rfl, ?_, ?_, rfl, hnow, hnext, ?_⟩)
      · rw [Pass.held, hcurrent]
        exact map_id_returnedJobs hexists
      · exact horder.nodup_iff.mpr (nodup_claimIds _ _ _ _ _)
      · intro id hid
        obtain ⟨row, hrow, hclaimable⟩ := hselected id hid
        refine ⟨pass.source, row, hrow, hclaimable, ?_⟩
        intro row' hrow'
        rw [hrows, hrow, Option.map_some, if_pos hid] at hrow'
        obtain rfl := Option.some.inj hrow'
        exact ⟨rfl, rfl⟩
  | begun hcurrent hwaiting =>
      refine Or.inr (Or.inl ⟨_, rfl, ?_, rfl⟩)
      simp [Pass.held, hcurrent, hwaiting]
  | fetched hcurrent hseq =>
      refine Or.inr (Or.inl ⟨_, rfl, ?_, rfl⟩)
      simp [Pass.held, hcurrent]
  | succeeded hcurrent =>
      refine Or.inr (Or.inl ⟨_, rfl, ?_, rfl⟩)
      simp [Pass.held, hcurrent]
  | failed hcurrent =>
      refine Or.inr (Or.inl ⟨_, rfl, ?_, rfl⟩)
      simp [Pass.held, hcurrent]

/-- **What a step does to the jobs held**: it gives some up, or claims what
could be claimed. -/
theorem step_held (h : w.step reading a = some w') (q : ℕ) :
    (w'.held q).Sublist (w.held q) ∨
      ∃ locked, a = .claim q locked (w'.held q) ∧ (w'.held q).Nodup ∧
        ∀ id ∈ w'.held q, ∃ source row, w.store.rows.row id = some row ∧
          claimable source w.now row = true ∧
          ∀ row', w'.store.rows.row id = some row' → row'.status = .retrying := by
  cases hpass' : w'.passes q with
  | none =>
      left
      rw [held, hpass']
      exact List.nil_sublist _
  | some pass' =>
      rw [held_of_pass hpass']
      rcases step_holdings h hpass' with hnil | ⟨pass, hpass, hsub, -⟩ |
        ⟨locked, order, rfl, horder, hnodup, -, -, -, hrows⟩
      · left
        rw [hnil]
        exact List.nil_sublist _
      · left
        rw [held_of_pass hpass]
        exact hsub
      · right
        rw [horder]
        refine ⟨locked, rfl, hnodup, ?_⟩
        intro id hid
        obtain ⟨source, row, hrow, hclaimable, hafter⟩ := hrows id hid
        exact ⟨source, row, hrow, hclaimable, fun row' hrow' => (hafter row' hrow').1⟩

/-- An acknowledged job is held by nobody. -/
theorem not_held_of_acked {p : ℕ} {pass : Pass P} {attempt : Attempt P}
    (h : w.step reading a = some w')
    (ha : a = .succeed p ∨ ∃ errorMessage, a = .fail p errorMessage)
    (hpass : w.passes p = some pass) (hcurrent : pass.current = some attempt)
    (hexclusive : Exclusive w.held) (q : ℕ) : attempt.job.id ∉ w'.held q := by
  intro hid
  have hbefore : attempt.job.id ∈ w.held q := by
    rcases step_held h q with hsub | ⟨locked, hclaim, -⟩
    · exact hsub.subset hid
    · rcases ha with rfl | ⟨errorMessage, rfl⟩ <;> cases hclaim
  obtain rfl := hexclusive.unique q p _ hbefore (mem_held_of_current hpass hcurrent)
  have hrest : w'.held q = pass.waiting.map ClaimedJob.id ∨ w'.held q = [] := by
    rcases ha with rfl | ⟨errorMessage, rfl⟩
    · simp only [step, hpass, Option.bind_some, succeed, hcurrent] at h
      split at h
      · cases h
      · obtain ⟨store, hstore, rfl⟩ := Option.map_eq_some_iff.mp h
        left
        simp [held, setPass, Pass.held]
    · simp only [step, hpass, Option.bind_some, fail, hcurrent] at h
      split at h
      · obtain rfl := Option.some.inj h
        left
        simp [held, setPass, Pass.held]
      · obtain rfl := Option.some.inj h
        right
        simp [held, setPass]
  have hnodup := hexclusive.nodup q
  rw [held_of_pass hpass, Pass.held, hcurrent] at hnodup
  rcases hrest with hrest | hrest
  · rw [hrest] at hid
    exact (List.nodup_cons.mp hnodup).1 hid
  · rw [hrest] at hid
    cases hid

end QueueWorld

/-! ## The invariant -/

/-- The passes hold open jobs, each job once. -/
structure HoldsOpenJobs (w : QueueWorld P K) : Prop where
  exclusive : Exclusive w.held
  isOpen : ∀ q, ∀ id ∈ w.held q, ∀ row, w.store.rows.row id = some row →
    row.status.isOpen = true

/-- Without a pass nothing is held. -/
theorem holdsOpenJobs_idle (store : QueueStore P K) (now : ℕ) :
    HoldsOpenJobs (QueueWorld.idle store now) :=
  ⟨.empty, fun _ _ hid => (nomatch hid)⟩

/-- No job is processed by two. -/
theorem HoldsOpenJobs.singleProcessor {w : QueueWorld P K} (hinv : HoldsOpenJobs w) :
    SingleProcessor w := by
  intro p q id hp hq
  exact hinv.exclusive.unique p q id (QueueWorld.mem_held_of_processing hp)
    (QueueWorld.mem_held_of_processing hq)

variable {a : QueueAction P}

/-- What an operator requeues is not done. -/
theorem not_done_of_requeued {rows : ℕ → QueueRow P K → Bool} {id : ℕ} {row : QueueRow P K}
    (h : QueueWorld.requeued P K a = some rows) (hrow : rows id row = true) :
    row.status ≠ .done := by
  intro hdone
  cases a with
  | replayDeadLetter source =>
      obtain rfl := Option.some.inj h
      simp [deadLetterOf, hdone] at hrow
  | requeueBulk status source =>
      simp only [QueueWorld.requeued] at h
      split at h
      · next hstatus =>
          obtain rfl := Option.some.inj h
          rcases hstatus with rfl | rfl <;> simp [hasStatus, hdone] at hrow
      · cases h
  | requeueJob jobId =>
      obtain rfl := Option.some.inj h
      simp [requeueable, hdone] at hrow
  | _ => cases h

variable [DecidableEq K] {reading : PayloadReading P K} {w w' : QueueWorld P K}

/-- **One step** that claims only free jobs leaves each job with one pass. -/
theorem exclusive_step (hinv : Exclusive w.held) (hfree : ClaimsOnlyFree w a)
    (h : w.step reading a = some w') : Exclusive w'.held := by
  by_cases hclaim : ∃ q locked order, a = .claim q locked order
  · obtain ⟨q, locked, order, rfl⟩ := hclaim
    have hothers : ∀ p, p ≠ q → (w'.held p).Sublist (w.held p) := by
      intro p hp
      rcases QueueWorld.step_held h p with hsub | ⟨locked', heq, -⟩
      · exact hsub
      · injection heq with hq
        exact absurd hq.symm hp
    rcases QueueWorld.step_held h q with hsub | ⟨locked', heq, hnodup, -⟩
    · apply hinv.shrink
      intro p
      by_cases hp : p = q
      · subst hp
        exact hsub
      · exact hothers p hp
    · injection heq with _ _ horder
      apply hinv.take q hothers hnodup
      rw [← horder]
      exact hfree
  · apply hinv.shrink
    intro q
    rcases QueueWorld.step_held h q with hsub | ⟨locked, rfl, -⟩
    · exact hsub
    · exact absurd ⟨q, locked, _, rfl⟩ hclaim

/-- **One step** keeps the jobs held open. -/
theorem holdsOpenJobs_step (hinv : HoldsOpenJobs w) (hfree : ClaimsOnlyFree w a)
    (h : w.step reading a = some w') : HoldsOpenJobs w' := by
  refine ⟨exclusive_step hinv.exclusive hfree h, ?_⟩
  intro q id hid row' hrow'
  rcases QueueWorld.step_held h q with hsub | ⟨locked, -, -, hclaimed⟩
  · have hheld := hsub.subset hid
    have hchange := (QueueWorld.step_spec h).row id
    rw [hrow'] at hchange
    generalize hbefore : w.store.rows.row id = before at hchange
    cases hchange with
    | same => exact hinv.isOpen q id hheld row' hbefore
    | inserted _ hopen => exact hopen
    | claimed => rfl
    | requeued => rfl
    | succeeded hpass hcurrent hsame =>
        subst hsame
        exact absurd hid (QueueWorld.not_held_of_acked h (Or.inl rfl) hpass hcurrent
          hinv.exclusive q)
    | failed hpass hcurrent hsame =>
        subst hsame
        exact absurd hid (QueueWorld.not_held_of_acked h (Or.inr ⟨_, rfl⟩) hpass hcurrent
          hinv.exclusive q)
  · obtain ⟨_, _, _, _, hafter⟩ := hclaimed id hid
    rw [hafter row' hrow']
    rfl

/-- A job that is done, or was before it was pruned. -/
structure Finished (w : QueueWorld P K) (id : ℕ) : Prop where
  id_lt : id < w.store.nextId
  done : ∀ row, w.store.rows.row id = some row → row.status = .done

/-- **One step** leaves a finished job finished. -/
theorem finished_step {id : ℕ} (hinv : HoldsOpenJobs w) (hfinished : Finished w id)
    (h : w.step reading a = some w') : Finished w' id := by
  have hspec := QueueWorld.step_spec h
  refine ⟨lt_of_lt_of_le hfinished.id_lt hspec.nextId_le, ?_⟩
  intro row' hrow'
  have hchange := hspec.row id
  rw [hrow'] at hchange
  generalize hbefore : w.store.rows.row id = before at hchange
  cases hchange with
  | same => exact hfinished.done row' hbefore
  | inserted hid => exact absurd hid hfinished.id_lt.ne
  | claimed _ hrow =>
      have hopen := status_isOpen_of_claimable hrow
      rw [hfinished.done _ hbefore] at hopen
      cases hopen
  | succeeded => rfl
  | failed hpass hcurrent hsame =>
      subst hsame
      have hopen := hinv.isOpen _ _ (QueueWorld.mem_held_of_current hpass hcurrent) _ hbefore
      rw [hfinished.done _ hbefore] at hopen
      cases hopen
  | requeued hrequeued hrow =>
      exact absurd (hfinished.done _ hbefore) (not_done_of_requeued hrequeued hrow)

/-- **Claims of free jobs keep passes apart and `done` final**, in every
interleaving, whatever the queue held at the start. -/
theorem free_claims_keep_queue_safe {store : QueueStore P K} {now : ℕ}
    (h : Reaches (QueueWorld.step reading) ClaimsOnlyFree (.idle store now) w)
    (h' : Reaches (QueueWorld.step reading) ClaimsOnlyFree w w') :
    SingleProcessor w ∧ DoneStays w w' := by
  have hinv : HoldsOpenJobs w := by
    refine h.invariant (holdsOpenJobs_idle store now) ?_
    intro s a s' hs hfree hstep
    exact holdsOpenJobs_step hs hfree hstep
  refine ⟨hinv.singleProcessor, ?_⟩
  intro id row row' hrow hdone hrow'
  have hstart : HoldsOpenJobs w ∧ Finished w id := by
    refine ⟨hinv, w.store.id_lt id row hrow, ?_⟩
    intro r hr
    obtain rfl := Option.some.inj (hrow.symm.trans hr)
    exact hdone
  let inv := fun v : QueueWorld P K => HoldsOpenJobs v ∧ Finished v id
  have hend : inv w' := by
    refine h'.invariant (show inv w from hstart) ?_
    intro s a s' hs hfree hstep
    exact ⟨holdsOpenJobs_step hs.1 hfree hstep, finished_step hs.1 hs.2 hstep⟩
  exact hend.2.done row' hrow'

/-! ## Batches acknowledged in time -/

/-- The condition on time and operators: no pass still holds a job when its
window closes, and what is requeued is held by nobody. -/
def AckedInWindow (w : QueueWorld P K) : QueueAction P → Prop
  | .tick seconds => ∀ q pass, w.passes q = some pass → pass.held ≠ [] →
      w.now + seconds < pass.claimedAt + claimVisibilitySeconds
  | a => ∀ rows, QueueWorld.requeued P K a = some rows → ∀ q, ∀ id ∈ w.held q, ∀ row,
      w.store.rows.row id = some row → rows id row = false

/-- The window of every held job is open. -/
def InWindow (w : QueueWorld P K) : Prop :=
  ∀ q pass, w.passes q = some pass → ∀ id ∈ pass.held,
    w.now < pass.claimedAt + claimVisibilitySeconds ∧ id < w.store.nextId ∧
      ∀ row, w.store.rows.row id = some row →
        row.nextAttemptAt = pass.claimedAt + claimVisibilitySeconds

omit [DecidableEq K] in
/-- What is requeued is not held. -/
theorem AckedInWindow.not_requeued (h : AckedInWindow w a) {rows : ℕ → QueueRow P K → Bool}
    (hrequeued : QueueWorld.requeued P K a = some rows) {q id : ℕ} (hid : id ∈ w.held q)
    {row : QueueRow P K} (hrow : w.store.rows.row id = some row) : rows id row = false := by
  cases a with
  | tick seconds => cases hrequeued
  | _ => exact h rows hrequeued q id hid row hrow

/-- A claim in time finds no held job due. -/
theorem claimsOnlyFree_of_inWindow (hinv : InWindow w) (h : w.step reading a = some w') :
    ClaimsOnlyFree w a := by
  cases a with
  | claim p locked order =>
      intro id hid q hheld
      obtain ⟨holder, hholder, hmem⟩ := QueueWorld.mem_held_iff.mp hheld
      obtain ⟨hopen, -, hdue⟩ := hinv q holder hholder id hmem
      obtain ⟨pass, hpass, h⟩ := Option.bind_eq_some_iff.mp h
      simp only [QueueWorld.claim] at h
      split at h
      · next hclaim =>
          obtain ⟨row, hrow, hclaimable⟩ := claimable_of_mem_claimIds (hclaim.2.2.subset hid)
          have hpast : row.nextAttemptAt ≤ w.now := by
            simp only [claimable, Bool.and_eq_true, decide_eq_true_eq] at hclaimable
            exact hclaimable.2
          have hfuture := hdue row hrow
          omega
      · cases h
  | _ => trivial

/-- **One step** in time leaves the window of every held job open. -/
theorem inWindow_step (hinv : InWindow w) (hexclusive : Exclusive w.held)
    (hacked : AckedInWindow w a)
    (h : w.step reading a = some w') : InWindow w' := by
  intro q pass' hpass' id hid
  have hspec := QueueWorld.step_spec h
  rcases QueueWorld.step_holdings h hpass' with hnil | ⟨pass, hpass, hsub, hsame⟩ |
    ⟨locked, order, rfl, horder, -, hsame, hnow, hnext, hrows⟩
  · rw [hnil] at hid
    cases hid
  · have hmem := hsub.subset hid
    obtain ⟨hopen, hlt, hdue⟩ := hinv q pass hpass id hmem
    have hheld : id ∈ w.held q := QueueWorld.mem_held_iff.mpr ⟨pass, hpass, hmem⟩
    have hheld' : id ∈ w'.held q := QueueWorld.mem_held_iff.mpr ⟨pass', hpass', hid⟩
    rw [hsame]
    refine ⟨?_, lt_of_lt_of_le hlt hspec.nextId_le, ?_⟩
    · rcases hspec.now with hnow | ⟨seconds, rfl, hnow⟩
      · omega
      · have := hacked q pass hpass (List.ne_nil_of_mem hmem)
        omega
    · intro row' hrow'
      have hchange := hspec.row id
      rw [hrow'] at hchange
      generalize hbefore : w.store.rows.row id = before at hchange
      cases hchange with
      | same => exact hdue row' hbefore
      | inserted hfresh => omega
      | claimed _ hclaimable =>
          have hfuture := hdue _ hbefore
          simp only [claimable, Bool.and_eq_true, decide_eq_true_eq] at hclaimable
          omega
      | succeeded hholder hcurrent hacked' =>
          subst hacked'
          exact absurd hheld' (QueueWorld.not_held_of_acked h (Or.inl rfl) hholder hcurrent
            hexclusive q)
      | failed hholder hcurrent hacked' =>
          subst hacked'
          exact absurd hheld' (QueueWorld.not_held_of_acked h (Or.inr ⟨_, rfl⟩) hholder hcurrent
            hexclusive q)
      | requeued hrequeued hrow =>
          rw [hacked.not_requeued hrequeued hheld hbefore] at hrow
          cases hrow
  · rw [horder] at hid
    obtain ⟨source, row, hrow, -, hafter⟩ := hrows id hid
    have hlt := w.store.id_lt id row hrow
    rw [hsame]
    refine ⟨?_, by omega, fun row' hrow' => (hafter row' hrow').2⟩
    rw [hnow, claimVisibilitySeconds]
    omega

/-- **Passes that acknowledge every batch before its window closes claim free
jobs only**, as long as operators leave held jobs alone. -/
theorem claimsOnlyFree_of_ackedInWindow {store : QueueStore P K} {now : ℕ}
    (h : Reaches (QueueWorld.step reading) AckedInWindow (.idle store now) w) :
    Reaches (QueueWorld.step reading) ClaimsOnlyFree (.idle store now) w := by
  let inv := fun v : QueueWorld P K => Exclusive v.held ∧ InWindow v
  have hstart : inv (.idle store now) := ⟨.empty, fun _ _ hpass => (nomatch hpass)⟩
  have hrefined : Reaches (QueueWorld.step reading) ClaimsOnlyFree (.idle store now) w ∧ inv w := by
    refine h.refine hstart ?_
    intro s a s' hs hacked hstep
    have hfree := claimsOnlyFree_of_inWindow hs.2 hstep
    exact ⟨hfree, exclusive_step hs.1 hfree hstep, inWindow_step hs.2 hs.1 hacked hstep⟩
  exact hrefined.1

end Safety

/-! ## A batch held too long

Pass 0 claims job 1 and is still at it two minutes later.  Pass 1 claims the
job again.  Pass 0 finishes, pass 1 fails, and the finished job is open. -/

/-- A reading under which the payload is its own digest. -/
def plainReading : PayloadReading WebhookPayload WebhookPayload where
  eventType := fun _ => "Download"
  fields := fun payload => payload
  digest := fun payload => payload

/-- The event names series 1. -/
def seriesOnePayload : WebhookPayload := { instanceName := some "default", seriesId := some 1 }

/-- A pass that claims job 1 and begins it. -/
def takeJobOne (p : ℕ) : List (QueueAction WebhookPayload) :=
  [.openPass p .sonarr {}, .claim p ∅ [1], .beginJob p]

/-- Both passes are at job 1. -/
def jobOneTakenTwice : List (QueueAction WebhookPayload) :=
  .accept .sonarr seriesOnePayload :: takeJobOne 0 ++ .tick 120 :: takeJobOne 1

/-- No job and no pass. -/
def emptyQueue : QueueWorld WebhookPayload WebhookPayload := .idle .empty 0

/-- A batch whose window closes under it is processed twice, and reopened. -/
theorem expired_batch_processed_twice :
    (∃ w, Reachable (QueueWorld.step plainReading) emptyQueue w ∧ ¬ SingleProcessor w) ∧
      ∃ w w', Reachable (QueueWorld.step plainReading) emptyQueue w ∧
        Reachable (QueueWorld.step plainReading) w w' ∧ ¬ DoneStays w w' := by
  have hboth : (replay (QueueWorld.step plainReading) jobOneTakenTwice emptyQueue).map
      (fun w => (w.processing 0, w.processing 1)) = some (some 1, some 1) := by decide
  have hdone : (replay (QueueWorld.step plainReading)
      (jobOneTakenTwice ++ [.fetch 0, .succeed 0]) emptyQueue).bind
      (fun w => (w.store.rows.row 1).map QueueRow.status) = some .done := by decide
  have hreopened : (replay (QueueWorld.step plainReading)
      (jobOneTakenTwice ++ [.fetch 0, .succeed 0]) emptyQueue).bind
      (fun w => (replay (QueueWorld.step plainReading) [.fail 1 "timeout"] w).bind
        fun w' => (w'.store.rows.row 1).map QueueRow.status) = some .retrying := by decide
  constructor
  · obtain ⟨w, hrun, hprocessing⟩ := Option.map_eq_some_iff.mp hboth
    obtain ⟨hzero, hone⟩ := Prod.mk.inj hprocessing
    refine ⟨w, reachable_of_replay hrun, fun hsingle => ?_⟩
    cases hsingle 0 1 1 hzero hone
  · obtain ⟨w, hrun, hrow⟩ := Option.bind_eq_some_iff.mp hdone
    rw [hrun, Option.bind_some] at hreopened
    obtain ⟨w', hrun', hrow'⟩ := Option.bind_eq_some_iff.mp hreopened
    obtain ⟨row, hrow, hstatus⟩ := Option.map_eq_some_iff.mp hrow
    obtain ⟨row', hrow', hstatus'⟩ := Option.map_eq_some_iff.mp hrow'
    refine ⟨w, w', reachable_of_replay hrun, reachable_of_replay hrun', fun hstays => ?_⟩
    have hstill := hstays 1 row row' hrow hstatus hrow'
    rw [hstatus'] at hstill
    cases hstill

/-- One pass that finishes its job in time, and the clock afterwards. -/
theorem finished_job_stays_done :
    ∃ w w' : QueueWorld WebhookPayload WebhookPayload,
      (w.store.rows.row 1).map QueueRow.status = some .done ∧ w'.now = 120 ∧
        SingleProcessor w ∧ DoneStays w w' := by
  have haccepted : Reaches (QueueWorld.step plainReading) ClaimsOnlyFree emptyQueue _ :=
    Reaches.refl.tail (show ClaimsOnlyFree _ (.accept .sonarr seriesOnePayload) from trivial) rfl
  have hopened := haccepted.tail (show ClaimsOnlyFree _ (.openPass 0 .sonarr {}) from trivial) rfl
  have hfree : ∀ v : QueueWorld WebhookPayload WebhookPayload, (∀ q, v.held q = []) →
      ClaimsOnlyFree v (.claim 0 ∅ [1]) := by
    intro v hv id _ q
    rw [hv]
    exact List.not_mem_nil
  have hclaimed := hopened.tail (hfree _ fun q => by
    by_cases hq : q = 0
    · subst hq
      rfl
    · simp [QueueWorld.held, QueueWorld.setPass, Function.update_of_ne hq, emptyQueue,
        QueueWorld.idle]) rfl
  have hbegun := hclaimed.tail (show ClaimsOnlyFree _ (.beginJob 0) from trivial) rfl
  have hfetched := hbegun.tail (show ClaimsOnlyFree _ (.fetch 0) from trivial) rfl
  have hwritten := hfetched.tail (show ClaimsOnlyFree _ (.succeed 0) from trivial) rfl
  refine ⟨_, _, ?_, ?_, free_claims_keep_queue_safe hwritten
    (Reaches.refl.tail (show ClaimsOnlyFree _ (.tick 120) from trivial) rfl)⟩
  · rfl
  · rfl

end Nebularr
