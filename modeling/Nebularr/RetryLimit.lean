import Nebularr.QueueSafety

/-!
# The retry limit

A claim counts an attempt; the limit is read when processing raises.  The two
agree as long as every claimed job is begun and comes to an outcome: then an
attempt that is not a failure yet is one some pass still holds, a job is dead
only after the limit in failures, and it is begun no more often than that.

A pass that leaves with claimed jobs, or meets another pass at one, breaks
this: the attempts it gave up count as failures, and a job whose processing
never comes back is begun for ever.

`JobTally` counts what the table does not: how often a job was begun and how
often processing it raised.
-/

namespace Nebularr

section Tally

variable {P K : Type}

/-- What happened to the jobs since they were enqueued. -/
structure JobTally where
  started : ℕ → ℕ := fun _ => 0
  raised : ℕ → ℕ := fun _ => 0
  /-- An operator asked for the job. -/
  requeued : ℕ → Bool := fun _ => false

/-- One more for a job, if there is one. -/
def countUp (count : ℕ → ℕ) (job : Option ℕ) (id : ℕ) : ℕ :=
  if job = some id then count id + 1 else count id

/-- The next job of a pass. -/
def QueueWorld.nextJob (w : QueueWorld P K) (p : ℕ) : Option ℕ :=
  (w.passes p).bind fun pass => pass.waiting.head?.map ClaimedJob.id

/-- The tally after a step from `w`. -/
def JobTally.after (t : JobTally) (w : QueueWorld P K) (a : QueueAction P) : JobTally where
  started := match a with
    | .beginJob p => countUp t.started (w.nextJob p)
    | _ => t.started
  raised := match a with
    | .fail p _ => countUp t.raised (w.processing p)
    | _ => t.raised
  requeued := match QueueWorld.requeued P K a with
    | some rows => fun id => t.requeued id || (w.store.rows.row id).any (rows id)
    | none => t.requeued

variable (P K) in
/-- The queue with its tally. -/
structure TalliedQueue where
  world : QueueWorld P K
  tally : JobTally

/-- The queue before the first webhook. -/
def TalliedQueue.fresh (now : ℕ) : TalliedQueue P K := ⟨.idle .empty now, {}⟩

/-- A step, counted. -/
def TalliedQueue.step [DecidableEq K] (reading : PayloadReading P K) (s : TalliedQueue P K)
    (a : QueueAction P) : Option (TalliedQueue P K) :=
  (s.world.step reading a).map fun w' => ⟨w', s.tally.after s.world a⟩

/-- **The retry limit**: a job is dead only after as many failures as the limit
says, and one that no operator requeued is begun no more often. -/
structure RetriesBounded (maxAttempts : ℕ) (s : TalliedQueue P K) : Prop where
  deadLetter : ∀ id row, s.world.store.rows.row id = some row → row.status = .deadLetter →
    maxAttempts ≤ s.tally.raised id
  started : ∀ id, s.tally.requeued id = false → s.tally.started id ≤ maxAttempts

/-- The passes run under one limit. -/
def UnderLimit (maxAttempts : ℕ) : QueueAction P → Prop
  | .openPass _ _ policy => policy.maxAttempts = maxAttempts
  | _ => True

/-- **The condition on a step**: no pass leaves with a job it has claimed, and a
claim takes only jobs no pass still holds. -/
def NoneGivenUp (w : QueueWorld P K) : QueueAction P → Prop
  | .leave p => w.held p = []
  | .claim _ _ order => ∀ id ∈ order, ∀ q, id ∉ w.held q
  | _ => True

theorem NoneGivenUp.claimsOnlyFree {w : QueueWorld P K} {a : QueueAction P} (h : NoneGivenUp w a) :
    ClaimsOnlyFree w a := by
  cases a <;> first | exact h | trivial

/-! ## Accounts -/

/-- The account of a job that a pass holds, with `waiting` claims not begun:
this claim is the one attempt that has not raised. -/
structure Owed (maxAttempts : ℕ) (s : TalliedQueue P K) (job : ClaimedJob P) (waiting : ℕ) :
    Prop where
  id_lt : job.id < s.world.store.nextId
  raised : job.attempts ≤ s.tally.raised job.id + 1
  limit : s.tally.requeued job.id = false →
    s.tally.started job.id + waiting ≤ job.attempts ∧ job.attempts ≤ maxAttempts
  row : ∀ row, s.world.store.rows.row job.id = some row → row.attempts = job.attempts

/-- The account of a row that nobody holds: every attempt has raised, and one
that is still open has attempts left. -/
structure SettledRow (maxAttempts : ℕ) (s : TalliedQueue P K) (id : ℕ) (row : QueueRow P K) :
    Prop where
  raised : row.attempts ≤ s.tally.raised id
  dead : row.status = .deadLetter → maxAttempts ≤ s.tally.raised id
  limit : s.tally.requeued id = false → s.tally.started id ≤ row.attempts ∧
    (row.status.isOpen = true → row.attempts < maxAttempts)

/-- Every job is accounted for. -/
structure Accounts (maxAttempts : ℕ) (s : TalliedQueue P K) : Prop where
  holds : HoldsOpenJobs s.world
  policy : ∀ q pass, s.world.passes q = some pass → pass.policy.maxAttempts = maxAttempts
  waiting : ∀ q pass, s.world.passes q = some pass → ∀ job ∈ pass.waiting,
    Owed maxAttempts s job 1
  current : ∀ q pass attempt, s.world.passes q = some pass → pass.current = some attempt →
    Owed maxAttempts s attempt.job 0
  free : ∀ id row, s.world.store.rows.row id = some row → (∀ q, id ∉ s.world.held q) →
    row.status ≠ .done → SettledRow maxAttempts s id row
  started : ∀ id, s.tally.requeued id = false → s.tally.started id ≤ maxAttempts
  fresh : ∀ id, s.world.store.nextId ≤ id → s.tally.started id = 0

variable {maxAttempts : ℕ} {s s' : TalliedQueue P K}

theorem accounts_fresh (now : ℕ) : Accounts maxAttempts (.fresh now : TalliedQueue P K) where
  holds := holdsOpenJobs_idle _ _
  policy _ _ hpass := nomatch hpass
  waiting _ _ hpass := nomatch hpass
  current _ _ _ hpass := nomatch hpass
  free _ _ hrow := nomatch hrow
  started _ _ := Nat.zero_le _
  fresh _ _ := rfl

/-- **Accounted jobs stay within the limit.**  A dead letter is not open, so
nobody holds it. -/
theorem Accounts.retriesBounded (h : Accounts maxAttempts s) : RetriesBounded maxAttempts s where
  deadLetter id row hrow hdead := by
    have hfree : ∀ q, id ∉ s.world.held q := by
      intro q hid
      have hopen := h.holds.isOpen q id hid row hrow
      rw [hdead] at hopen
      cases hopen
    exact (h.free id row hrow hfree (by rw [hdead]; decide)).dead hdead
  started := h.started

/-- The account of a job does not change. -/
structure SameAccount (s s' : TalliedQueue P K) (id : ℕ) : Prop where
  row : s'.world.store.rows.row id = s.world.store.rows.row id
  raised : s'.tally.raised id = s.tally.raised id
  started : s'.tally.started id = s.tally.started id
  requeued : s'.tally.requeued id = s.tally.requeued id

theorem Owed.congr {job : ClaimedJob P} {n : ℕ} (h : Owed maxAttempts s job n)
    (hsame : SameAccount s s' job.id) (hnext : s.world.store.nextId ≤ s'.world.store.nextId) :
    Owed maxAttempts s' job n where
  id_lt := h.id_lt.trans_le hnext
  raised := by rw [hsame.raised]; exact h.raised
  limit := by rw [hsame.requeued, hsame.started]; exact h.limit
  row := by rw [hsame.row]; exact h.row

theorem SettledRow.congr {id : ℕ} {row : QueueRow P K} (h : SettledRow maxAttempts s id row)
    (hsame : SameAccount s s' id) : SettledRow maxAttempts s' id row where
  raised := by rw [hsame.raised]; exact h.raised
  dead := by rw [hsame.raised]; exact h.dead
  limit := by rw [hsame.requeued, hsame.started]; exact h.limit

variable [DecidableEq K] {reading : PayloadReading P K} {a : QueueAction P} {w' : QueueWorld P K}

/-! ## Steps of nobody's pass -/

/-- The action is a pass's own. -/
def QueueAction.ofPass : QueueAction P → Bool
  | .openPass _ _ _ | .claim _ _ _ | .beginJob _ | .fetch _ | .succeed _ | .fail _ _ | .leave _ =>
      true
  | _ => false

/-- The others leave the passes alone. -/
theorem QueueWorld.passes_of_not_ofPass {w : QueueWorld P K} (ha : a.ofPass = false)
    (h : w.step reading a = some w') : w'.passes = w.passes := by
  have hrequeue : ((QueueWorld.requeued P K a).bind fun rows =>
      (requeueWhere rows w.now w.store).map fun store => { w with store := store }) = some w' →
        w'.passes = w.passes := by
    intro h
    obtain ⟨rows, -, h⟩ := Option.bind_eq_some_iff.mp h
    obtain ⟨store, -, rfl⟩ := Option.map_eq_some_iff.mp h
    rfl
  cases a with
  | tick seconds => rw [← Option.some.inj h]
  | accept source payload => rw [← Option.some.inj h]
  | prune keepDays => rw [← Option.some.inj h]
  | replayDeadLetter source => exact hrequeue h
  | requeueBulk status source => exact hrequeue h
  | requeueJob jobId => exact hrequeue h
  | _ => cases ha

/-- A new row has no attempts. -/
theorem attempts_of_accept {w : QueueWorld P K} {source : Source} {payload : P} {id : ℕ}
    {row' : QueueRow P K} (h : w.step reading (.accept source payload) = some w')
    (hbefore : w.store.rows.row id = none) (hrow' : w'.store.rows.row id = some row') :
    row'.attempts = 0 := by
  obtain rfl := Option.some.inj h
  change (enqueueWebhook reading w.now source payload w.store).rows.row id = some row' at hrow'
  rcases w.store.insert_cases (queuedRow reading w.now source payload) with hinserted | ⟨hsame, -⟩
  · rw [enqueueWebhook, hinserted, KeyedTable.row_upsert, hbefore] at hrow'
    split at hrow'
    · next hid =>
        subst hid
        rw [hbefore] at hrow'
        obtain rfl := Option.some.inj hrow'
        rfl
    · cases hrow'
  · rw [enqueueWebhook, hsame, hbefore] at hrow'
    cases hrow'

/-- What such a step can leave under an id: the row that was there, one that an
operator requeued, or a new one. -/
theorem row_of_not_ofPass (ha : a.ofPass = false) (h : s.world.step reading a = some w') {id : ℕ}
    {row' : QueueRow P K} (hrow' : w'.store.rows.row id = some row') :
    s.world.store.rows.row id = some row' ∨
      (∃ row, s.world.store.rows.row id = some row ∧ row'.attempts = row.attempts ∧
        row.status ≠ .done ∧ row'.status = .queued ∧
        (s.tally.after s.world a).requeued id = true) ∨
      (id = s.world.store.nextId ∧ row'.attempts = 0 ∧ row'.status.isOpen = true) := by
  have hchange := (QueueWorld.step_spec h).row id
  rw [hrow'] at hchange
  generalize hbefore : s.world.store.rows.row id = before at hchange
  cases hchange with
  | same => exact Or.inl rfl
  | inserted hid hopen =>
      exact Or.inr (Or.inr ⟨hid, attempts_of_accept h hbefore hrow', hopen⟩)
  | claimed => cases ha
  | succeeded => cases ha
  | failed => cases ha
  | requeued hrequeued hrow =>
      refine Or.inr (Or.inl ⟨_, rfl, rfl, not_done_of_requeued hrequeued hrow, rfl, ?_⟩)
      simp only [JobTally.after, hrequeued, hbefore, Option.any_some, hrow, Bool.or_true]

omit [DecidableEq K] in
/-- An operator's request is not forgotten. -/
theorem requeued_of_after {t : JobTally} {w : QueueWorld P K} {id : ℕ}
    (h : (t.after w a).requeued id = false) : t.requeued id = false := by
  cases hrequeued : QueueWorld.requeued P K a with
  | none => simpa only [JobTally.after, hrequeued] using h
  | some rows =>
      simp only [JobTally.after, hrequeued, Bool.or_eq_false_iff] at h
      exact h.1

/-- **A step of nobody's pass keeps the accounts.** -/
theorem Accounts.of_not_ofPass (h : Accounts maxAttempts s) (hmax : 1 ≤ maxAttempts)
    (ha : a.ofPass = false) (hstep : s.world.step reading a = some w') :
    Accounts maxAttempts ⟨w', s.tally.after s.world a⟩ := by
  have hpasses := QueueWorld.passes_of_not_ofPass ha hstep
  have hheld : ∀ q, w'.held q = s.world.held q := fun q => by
    rw [QueueWorld.held, hpasses, QueueWorld.held]
  have hnext := (QueueWorld.step_spec hstep).nextId_le
  have hstarted : (s.tally.after s.world a).started = s.tally.started := by
    cases a <;> first | rfl | cases ha
  have hraised : (s.tally.after s.world a).raised = s.tally.raised := by
    cases a <;> first | rfl | cases ha
  have hfree : ClaimsOnlyFree s.world a := by
    cases a <;> trivial
  have howed : ∀ {job : ClaimedJob P} {n : ℕ}, Owed maxAttempts s job n →
      Owed maxAttempts ⟨w', s.tally.after s.world a⟩ job n := by
    intro job n hjob
    refine ⟨hjob.id_lt.trans_le hnext, ?_, ?_, ?_⟩
    · rw [hraised]
      exact hjob.raised
    · intro hnot
      rw [hstarted]
      exact hjob.limit (requeued_of_after hnot)
    · intro row' hrow'
      rcases row_of_not_ofPass ha hstep hrow' with hsame | ⟨row, hrow, hattempts, -⟩ | ⟨hid, -⟩
      · exact hjob.row row' hsame
      · exact hattempts.trans (hjob.row row hrow)
      · exact absurd hid hjob.id_lt.ne
  constructor
  · exact holdsOpenJobs_step h.holds hfree hstep
  · intro q pass hpass
    exact h.policy q pass (hpasses ▸ hpass)
  · intro q pass hpass job hjob
    exact howed (h.waiting q pass (hpasses ▸ hpass) job hjob)
  · intro q pass attempt hpass hcurrent
    exact howed (h.current q pass attempt (hpasses ▸ hpass) hcurrent)
  · intro id row' hrow' hnone hdone
    have hnone' : ∀ q, id ∉ s.world.held q := fun q hid => hnone q ((hheld q).symm ▸ hid)
    rcases row_of_not_ofPass ha hstep hrow' with
      hsame | ⟨row, hrow, hattempts, hrowDone, hstatus, hasked⟩ | ⟨rfl, hzero, hopen⟩
    · have hold := h.free id row' hsame hnone' hdone
      refine ⟨?_, ?_, ?_⟩
      · rw [hraised]
        exact hold.raised
      · rw [hraised]
        exact hold.dead
      · intro hnot
        rw [hstarted]
        exact hold.limit (requeued_of_after hnot)
    · have hold := h.free id row hrow hnone' hrowDone
      refine ⟨?_, ?_, ?_⟩
      · rw [hraised, hattempts]
        exact hold.raised
      · intro hdead
        rw [hstatus] at hdead
        cases hdead
      · intro hnot
        exact absurd hasked (by rw [hnot]; decide)
    · refine ⟨?_, ?_, ?_⟩
      · rw [hzero]
        exact Nat.zero_le _
      · intro hdead
        rw [hdead] at hopen
        cases hopen
      · intro _
        rw [hstarted, h.fresh _ (le_refl _), hzero]
        exact ⟨le_refl _, fun _ => hmax⟩
  · intro id hnot
    rw [hstarted]
    exact h.started id (requeued_of_after hnot)
  · intro id hid
    rw [hstarted]
    exact h.fresh id (hnext.trans hid)

/-! ## Steps of a pass -/

omit [DecidableEq K] in
theorem QueueWorld.held_setPass (w : QueueWorld P K) (p : ℕ) (pass : Option (Pass P)) (q : ℕ) :
    (w.setPass p pass).held q = if q = p then (pass.map Pass.held).getD [] else w.held q := by
  by_cases hq : q = p
  · subst hq
    simp [held, setPass]
  · simp [held, setPass, hq]

omit [DecidableEq K] in
/-- What is to be shown of a step that replaces the pass `p`. -/
theorem Accounts.of_setPass (h : Accounts maxAttempts s) {p : ℕ} {pass' : Option (Pass P)}
    (hpasses : s'.world.passes = Function.update s.world.passes p pass')
    (hholds : HoldsOpenJobs s'.world)
    (hnext : s'.world.store.nextId = s.world.store.nextId)
    (hpolicy : ∀ pass, pass' = some pass → pass.policy.maxAttempts = maxAttempts)
    (hwaiting : ∀ pass, pass' = some pass → ∀ job ∈ pass.waiting, Owed maxAttempts s' job 1)
    (hcurrent : ∀ pass attempt, pass' = some pass → pass.current = some attempt →
      Owed maxAttempts s' attempt.job 0)
    (hothers : ∀ q, q ≠ p → ∀ id ∈ s.world.held q, SameAccount s s' id)
    (hfree : ∀ id row, s'.world.store.rows.row id = some row → (∀ q, id ∉ s'.world.held q) →
      row.status ≠ .done → SettledRow maxAttempts s' id row)
    (hstarted : ∀ id, s'.tally.requeued id = false → s'.tally.started id ≤ maxAttempts)
    (hfresh : ∀ id, s.world.store.nextId ≤ id → s'.tally.started id = 0) :
    Accounts maxAttempts s' where
  holds := hholds
  policy q pass hpass := by
    rw [hpasses] at hpass
    by_cases hq : q = p
    · subst hq
      rw [Function.update_self] at hpass
      exact hpolicy pass hpass
    · rw [Function.update_of_ne hq] at hpass
      exact h.policy q pass hpass
  waiting q pass hpass job hjob := by
    rw [hpasses] at hpass
    by_cases hq : q = p
    · subst hq
      rw [Function.update_self] at hpass
      exact hwaiting pass hpass job hjob
    · rw [Function.update_of_ne hq] at hpass
      have hheld : job.id ∈ s.world.held q := by
        rw [QueueWorld.held_of_pass hpass]
        exact List.mem_append_right _ (List.mem_map_of_mem hjob)
      exact (h.waiting q pass hpass job hjob).congr (hothers q hq _ hheld) hnext.ge
  current q pass attempt hpass hattempt := by
    rw [hpasses] at hpass
    by_cases hq : q = p
    · subst hq
      rw [Function.update_self] at hpass
      exact hcurrent pass attempt hpass hattempt
    · rw [Function.update_of_ne hq] at hpass
      have hheld := QueueWorld.mem_held_of_current hpass hattempt
      exact (h.current q pass attempt hpass hattempt).congr (hothers q hq _ hheld) hnext.ge
  free := hfree
  started := hstarted
  fresh id hid := hfresh id (hnext ▸ hid)

omit [DecidableEq K] in
/-- A step that replaces a pass by one with the same jobs. -/
theorem Accounts.of_sameJobs (h : Accounts maxAttempts s) {p : ℕ} {pass' : Option (Pass P)}
    {seq : ℕ} (hholds : HoldsOpenJobs ({ s.world with seq := seq }.setPass p pass'))
    (hheld : (pass'.map Pass.held).getD [] = s.world.held p)
    (hpolicy : ∀ pass, pass' = some pass → pass.policy.maxAttempts = maxAttempts)
    (hjobs : ∀ pass, pass' = some pass → (∀ job ∈ pass.waiting, Owed maxAttempts s job 1) ∧
      ∀ attempt, pass.current = some attempt → Owed maxAttempts s attempt.job 0) :
    Accounts maxAttempts ⟨{ s.world with seq := seq }.setPass p pass', s.tally⟩ := by
  have hsame : ∀ id, SameAccount s ⟨{ s.world with seq := seq }.setPass p pass', s.tally⟩ id :=
    fun _ => ⟨rfl, rfl, rfl, rfl⟩
  have hheld' : ∀ q, ({ s.world with seq := seq }.setPass p pass').held q = s.world.held q := by
    intro q
    rw [QueueWorld.held_setPass]
    split
    · next hq => rw [hq, hheld]
    · rfl
  refine h.of_setPass rfl hholds rfl hpolicy ?_ ?_ (fun _ _ id _ => hsame id) ?_ h.started h.fresh
  · intro pass hpass job hjob
    exact ((hjobs pass hpass).1 job hjob).congr (hsame _) (le_refl _)
  · intro pass attempt hpass hattempt
    exact ((hjobs pass hpass).2 attempt hattempt).congr (hsame _) (le_refl _)
  · intro id row hrow hnone hdone
    exact (h.free id row hrow (fun q hid => hnone q ((hheld' q).symm ▸ hid)) hdone).congr (hsame id)

/-- A pass that holds nothing is at no job. -/
theorem Pass.eq_nil_of_held {pass : Pass P} (h : pass.held = []) :
    pass.current = none ∧ pass.waiting = [] := by
  obtain ⟨hcurrent, hwaiting⟩ := List.append_eq_nil_iff.mp h
  refine ⟨?_, List.map_eq_nil_iff.mp hwaiting⟩
  cases hattempt : pass.current with
  | none => rfl
  | some attempt => simp [hattempt] at hcurrent

/-- **A claim opens an account for each job of the batch**: the row was free,
so its attempts had all raised. -/
theorem Accounts.owed_of_claimed (h : Accounts maxAttempts s) {order : List ℕ}
    {store : QueueStore P K}
    (hstore : claimWebhookJobs s.world.now order s.world.store = some store)
    (hgiven : ∀ id ∈ order, ∀ q, id ∉ s.world.held q)
    (hopen : ∀ id ∈ order, ∀ row, s.world.store.rows.row id = some row → row.status.isOpen = true)
    (hw : w'.store = store) {job : ClaimedJob P} (hjob : job ∈ returnedJobs order store.rows) :
    Owed maxAttempts ⟨w', s.tally⟩ job 1 := by
  obtain ⟨hid, row', hon', -, -, -, hattempts⟩ := mem_returnedJobs_iff.mp hjob
  have hclaimed := hon'
  rw [row_claimWebhookJobs hstore] at hclaimed
  obtain ⟨row, hon, hrow⟩ := Option.map_eq_some_iff.mp hclaimed
  rw [if_pos hid] at hrow
  have hrow' : row'.attempts = row.attempts + 1 := by rw [← hrow]
  have hrowOpen := hopen job.id hid row hon
  have hsettled : SettledRow maxAttempts s job.id row := by
    apply h.free job.id row hon (hgiven job.id hid)
    intro hdone
    rw [hdone] at hrowOpen
    cases hrowOpen
  refine ⟨?_, ?_, ?_, ?_⟩
  · rw [hw, QueueStore.nextId_of_updateWhere hstore]
    exact s.world.store.id_lt job.id row hon
  · rw [hattempts, hrow']
    exact Nat.succ_le_succ hsettled.raised
  · intro hnot
    obtain ⟨hstarted, hleft⟩ := hsettled.limit hnot
    rw [hattempts, hrow']
    exact ⟨Nat.succ_le_succ hstarted, hleft hrowOpen⟩
  · intro row'' hon''
    rw [hw] at hon''
    obtain rfl := Option.some.inj (hon'.symm.trans hon'')
    exact hattempts.symm

/-- A claim that takes only free jobs keeps the accounts. -/
theorem Accounts.claim (h : Accounts maxAttempts s) {p : ℕ} {pass : Pass P} {locked : Finset ℕ}
    {order : List ℕ} (hpass : s.world.passes p = some pass)
    (hgiven : ∀ id ∈ order, ∀ q, id ∉ s.world.held q)
    (hstep : s.world.claim p pass locked order = some w') (hholds : HoldsOpenJobs w') :
    Accounts maxAttempts ⟨w', s.tally⟩ := by
  simp only [QueueWorld.claim] at hstep
  split at hstep
  · next hclaim =>
      obtain ⟨hidle, -, horder⟩ := hclaim
      obtain ⟨hnoCurrent, hnoWaiting⟩ := Pass.eq_nil_of_held hidle
      have hheldp : s.world.held p = [] := by rw [QueueWorld.held_of_pass hpass, hidle]
      split at hstep
      · obtain rfl := Option.some.inj hstep
        refine h.of_sameJobs hholds hheldp.symm ?_ ?_
        · intro _ hnone
          cases hnone
        · intro _ hnone
          cases hnone
      · obtain ⟨store, hstore, rfl⟩ := Option.map_eq_some_iff.mp hstep
        have hselected : ∀ id ∈ order, ∃ row, s.world.store.rows.row id = some row ∧
            row.status.isOpen = true := by
          intro id hid
          obtain ⟨row, hon, hclaimable⟩ := claimable_of_mem_claimIds (horder.subset hid)
          exact ⟨row, hon, status_isOpen_of_claimable hclaimable⟩
        have hopen : ∀ id ∈ order, ∀ row, s.world.store.rows.row id = some row →
            row.status.isOpen = true := by
          intro id hid row hon
          obtain ⟨row', hon', hrow'⟩ := hselected id hid
          obtain rfl := Option.some.inj (hon.symm.trans hon')
          exact hrow'
        have hsame : ∀ id, id ∉ order → store.rows.row id = s.world.store.rows.row id := by
          intro id hid
          rw [row_claimWebhookJobs hstore]
          simp [hid]
        have hids : (returnedJobs order store.rows).map ClaimedJob.id = order := by
          refine map_id_returnedJobs fun id hid => ?_
          obtain ⟨row, hon, -⟩ := hselected id hid
          simp [row_claimWebhookJobs hstore, hon]
        refine h.of_setPass rfl hholds (QueueStore.nextId_of_updateWhere hstore) ?_ ?_ ?_ ?_ ?_
          h.started h.fresh
        · intro _ hnew
          obtain rfl := Option.some.inj hnew
          exact h.policy p pass hpass
        · intro _ hnew job hjob
          obtain rfl := Option.some.inj hnew
          exact h.owed_of_claimed hstore hgiven hopen rfl hjob
        · intro _ attempt hnew hattempt
          obtain rfl := Option.some.inj hnew
          rw [hnoCurrent] at hattempt
          cases hattempt
        · intro q _ id hid
          exact ⟨hsame id fun hin => hgiven id hin q hid, rfl, rfl, rfl⟩
        · intro id row hon hnone hdone
          have hnot : id ∉ order := by
            intro hin
            refine hnone p ?_
            rw [QueueWorld.held_setPass, if_pos rfl, Option.map_some, Option.getD_some, Pass.held,
              hnoCurrent, hids]
            exact hin
          refine (h.free id row ((hsame id hnot).symm.trans hon) ?_ hdone).congr
            ⟨hsame id hnot, rfl, rfl, rfl⟩
          intro q hid
          by_cases hq : q = p
          · subst hq
            rw [hheldp] at hid
            cases hid
          · refine hnone q ?_
            rw [QueueWorld.held_setPass, if_neg hq]
            exact hid
  · cases hstep

omit [DecidableEq K] in
/-- **A job that is begun** is owed no longer as waiting. -/
theorem Accounts.beginJob (h : Accounts maxAttempts s) {p : ℕ} {pass : Pass P}
    (hpass : s.world.passes p = some pass) (hstep : s.world.beginJob p pass = some w')
    (hholds : HoldsOpenJobs w') :
    Accounts maxAttempts ⟨w', s.tally.after s.world (.beginJob p)⟩ := by
  simp only [QueueWorld.beginJob] at hstep
  split at hstep
  · next job rest hnoCurrent hwaiting =>
      obtain rfl := Option.some.inj hstep
      have hnext : s.world.nextJob p = some job.id := by
        rw [QueueWorld.nextJob, hpass, Option.bind_some, hwaiting]
        rfl
      have hheldp : s.world.held p = job.id :: rest.map ClaimedJob.id := by
        rw [QueueWorld.held_of_pass hpass, Pass.held, hnoCurrent, hwaiting]
        rfl
      have happart := h.holds.exclusive.head_apart hheldp
      have howed := h.waiting p pass hpass job (hwaiting ▸ List.mem_cons_self)
      have hstarted : ∀ id, (s.tally.after s.world (.beginJob p) : JobTally).started id =
          if job.id = id then s.tally.started id + 1 else s.tally.started id := by
        intro id
        simp only [JobTally.after, countUp, hnext, Option.some.injEq]
      have hheld : ∀ q, (s.world.setPass p (some
          { pass with current := some { job := job }, waiting := rest })).held q =
            s.world.held q := by
        intro q
        rw [QueueWorld.held_setPass]
        split
        · next hq =>
            rw [hq, hheldp]
            rfl
        · rfl
      have hsame : ∀ id, id ≠ job.id → SameAccount s ⟨s.world.setPass p (some
          { pass with current := some { job := job }, waiting := rest }),
            s.tally.after s.world (.beginJob p)⟩ id := by
        intro id hid
        exact ⟨rfl, rfl, (hstarted id).trans (if_neg (Ne.symm hid)), rfl⟩
      refine h.of_setPass rfl hholds rfl ?_ ?_ ?_ ?_ ?_ ?_ ?_
      · rintro _ ⟨rfl⟩
        exact h.policy p pass hpass
      · rintro _ ⟨rfl⟩ other hother
        have hne : other.id ≠ job.id := fun heq => happart.1 (heq ▸ List.mem_map_of_mem hother)
        have hin : other ∈ pass.waiting := hwaiting ▸ List.mem_cons_of_mem _ hother
        exact (h.waiting p pass hpass other hin).congr (hsame _ hne) (le_refl _)
      · rintro _ attempt ⟨rfl⟩ hattempt
        obtain rfl := Option.some.inj hattempt
        refine ⟨howed.id_lt, howed.raised, ?_, howed.row⟩
        intro hnot
        rw [hstarted, if_pos rfl]
        exact howed.limit hnot
      · intro q hq id hid
        exact hsame id fun heq => happart.2 q hq (heq ▸ hid)
      · intro id row hrow hnone hdone
        have hnone' : ∀ q, id ∉ s.world.held q := fun q hid => hnone q ((hheld q).symm ▸ hid)
        refine (h.free id row hrow hnone' hdone).congr (hsame id ?_)
        rintro rfl
        exact hnone' p (hheldp ▸ List.mem_cons_self)
      · intro id hnot
        rw [hstarted]
        split
        · next heq =>
            subst heq
            obtain ⟨hle, hlimit⟩ := howed.limit hnot
            exact hle.trans hlimit
        · exact h.started id hnot
      · intro id hid
        rw [hstarted, if_neg (howed.id_lt.trans_le hid).ne]
        exact h.fresh id hid
  · cases hstep

omit [DecidableEq K] in
/-- What is to be shown of a step that acknowledges the job in process: that
its row is settled, unless it is done. -/
theorem Accounts.acked (h : Accounts maxAttempts s) {p : ℕ} {pass : Pass P} {attempt : Attempt P}
    (hpass : s.world.passes p = some pass) (hcurrent : pass.current = some attempt)
    {w' : QueueWorld P K} {tally : JobTally}
    (hpasses : w'.passes = Function.update s.world.passes p (some { pass with current := none }))
    (hholds : HoldsOpenJobs w') (hnext : w'.store.nextId = s.world.store.nextId)
    (hsame : ∀ id, id ≠ attempt.job.id → SameAccount s ⟨w', tally⟩ id)
    (hstarted : tally.started = s.tally.started) (hrequeued : tally.requeued = s.tally.requeued)
    (hsettled : ∀ row, w'.store.rows.row attempt.job.id = some row → row.status ≠ .done →
      SettledRow maxAttempts ⟨w', tally⟩ attempt.job.id row) :
    Accounts maxAttempts ⟨w', tally⟩ := by
  have hheldp : s.world.held p = attempt.job.id :: pass.waiting.map ClaimedJob.id := by
    rw [QueueWorld.held_of_pass hpass, Pass.held, hcurrent]
    rfl
  have happart := h.holds.exclusive.head_apart hheldp
  have hheld : ∀ q, w'.held q =
      if q = p then pass.waiting.map ClaimedJob.id else s.world.held q := by
    intro q
    rw [QueueWorld.held, hpasses]
    by_cases hq : q = p
    · subst hq
      simp [Pass.held]
    · rw [Function.update_of_ne hq, if_neg hq, QueueWorld.held]
  refine h.of_setPass hpasses hholds hnext ?_ ?_ ?_ ?_ ?_ ?_ ?_
  · rintro _ ⟨rfl⟩
    exact h.policy p pass hpass
  · rintro _ ⟨rfl⟩ job hjob
    have hne : job.id ≠ attempt.job.id := fun heq => happart.1 (heq ▸ List.mem_map_of_mem hjob)
    exact (h.waiting p pass hpass job hjob).congr (hsame _ hne) hnext.ge
  · rintro _ _ ⟨rfl⟩ hnone
    cases hnone
  · intro q hq id hid
    exact hsame id fun heq => happart.2 q hq (heq ▸ hid)
  · intro id row hrow hnone hdone
    by_cases hid : id = attempt.job.id
    · subst hid
      exact hsettled row hrow hdone
    · refine (h.free id row ((hsame id hid).row.symm.trans hrow) ?_ hdone).congr (hsame id hid)
      intro q hin
      refine hnone q ?_
      rw [hheld]
      split
      · next hq =>
          rw [hq, hheldp] at hin
          exact (List.mem_cons.mp hin).resolve_left hid
      · exact hin
  · intro id hnot
    rw [hstarted]
    exact h.started id (hrequeued ▸ hnot)
  · intro id hid
    rw [hstarted]
    exact h.fresh id hid

/-- A finished job needs no account. -/
theorem Accounts.succeed (h : Accounts maxAttempts s) {p : ℕ} {pass : Pass P}
    (hpass : s.world.passes p = some pass) (hstep : s.world.succeed p pass = some w')
    (hholds : HoldsOpenJobs w') : Accounts maxAttempts ⟨w', s.tally⟩ := by
  simp only [QueueWorld.succeed] at hstep
  split at hstep
  · next attempt hcurrent =>
      split at hstep
      · cases hstep
      · obtain ⟨store, hstore, rfl⟩ := Option.map_eq_some_iff.mp hstep
        refine h.acked hpass hcurrent rfl hholds
          (QueueStore.nextId_of_updateWhere hstore) ?_ rfl rfl
          ?_
        · intro id hid
          refine ⟨?_, rfl, rfl, rfl⟩
          change store.rows.row id = _
          rw [QueueStore.row_of_updateWhere hstore]
          simp [hid]
        · intro row hrow hdone
          change store.rows.row attempt.job.id = _ at hrow
          rw [QueueStore.row_of_updateWhere hstore] at hrow
          obtain ⟨old, -, rfl⟩ := Option.map_eq_some_iff.mp hrow
          simp at hdone
  · cases hstep

/-- Recording the failure of an open job is never refused by the index. -/
theorem markWebhookFailed_isSome {policy : QueuePolicy} {queueId attempts now : ℕ}
    {errorMessage : String} {store : QueueStore P K}
    (hopen : ∀ row, store.rows.row queueId = some row → row.status.isOpen = true) :
    (markWebhookFailed policy queueId attempts errorMessage now store).isSome = true := by
  refine store.updateWhere_isSome ?_
  intro id row hrow hid
  obtain rfl := of_decide_eq_true hid
  unfold QueueRow.openKey
  rw [hopen row hrow]
  dsimp only
  split
  · exact Or.inl rfl
  · exact Or.inr rfl

/-- **A failure settles its job**: the attempt has raised, and the limit is
read off the attempts the claim returned, which are those of the row. -/
theorem Owed.settled_of_failed {job : ClaimedJob P} (howed : Owed maxAttempts s job 0)
    {policy : QueuePolicy} (hlimit : policy.maxAttempts = maxAttempts) {errorMessage : String}
    {now : ℕ} {store : QueueStore P K}
    (hstore : markWebhookFailed policy job.id job.attempts errorMessage now s.world.store =
      some store)
    (hraised : s'.tally.raised job.id = s.tally.raised job.id + 1)
    (hstarted : s'.tally.started = s.tally.started)
    (hrequeued : s'.tally.requeued = s.tally.requeued) {row : QueueRow P K}
    (hrow : store.rows.row job.id = some row) : SettledRow maxAttempts s' job.id row := by
  rw [QueueStore.row_of_updateWhere hstore] at hrow
  obtain ⟨old, hold, rfl⟩ := Option.map_eq_some_iff.mp hrow
  have hattempts := howed.row old hold
  simp only [decide_true, if_true]
  refine ⟨?_, ?_, ?_⟩
  · rw [hraised]
    exact hattempts.trans_le howed.raised
  · intro hdead
    rw [hraised]
    by_cases hreached : maxAttempts ≤ job.attempts
    · exact hreached.trans howed.raised
    · simp [hlimit, hreached] at hdead
  · intro hnot
    rw [hrequeued] at hnot
    obtain ⟨hbegun, -⟩ := howed.limit hnot
    rw [hstarted]
    refine ⟨hbegun.trans_eq hattempts.symm, ?_⟩
    intro hopen
    by_cases hreached : maxAttempts ≤ job.attempts
    · simp [hlimit, hreached, QueueStatus.isOpen] at hopen
    · exact hattempts.trans_lt (Nat.lt_of_not_le hreached)

/-- A failure that is recorded keeps the accounts, and it always is. -/
theorem Accounts.fail (h : Accounts maxAttempts s) {p : ℕ} {pass : Pass P} {errorMessage : String}
    (hpass : s.world.passes p = some pass) (hstep : s.world.fail p pass errorMessage = some w')
    (hholds : HoldsOpenJobs w') :
    Accounts maxAttempts ⟨w', s.tally.after s.world (.fail p errorMessage)⟩ := by
  simp only [QueueWorld.fail] at hstep
  split at hstep
  · next attempt hcurrent =>
      have hheld := QueueWorld.mem_held_of_current hpass hcurrent
      have howed := h.current p pass attempt hpass hcurrent
      have hraised : ∀ id, (s.tally.after s.world (.fail p errorMessage) : JobTally).raised id =
          if attempt.job.id = id then s.tally.raised id + 1 else s.tally.raised id := by
        intro id
        simp only [JobTally.after, countUp, QueueWorld.processing, hpass, hcurrent,
          Option.bind_some, Option.map_some, Option.some.injEq]
      split at hstep
      · next store hstore =>
          obtain rfl := Option.some.inj hstep
          refine h.acked hpass hcurrent rfl hholds (QueueStore.nextId_of_updateWhere hstore) ?_ rfl
            rfl ?_
          · intro id hid
            refine ⟨?_, (hraised id).trans (if_neg (Ne.symm hid)), rfl, rfl⟩
            change store.rows.row id = _
            rw [QueueStore.row_of_updateWhere hstore]
            simp [hid]
          · intro row hrow _
            refine howed.settled_of_failed (h.policy p pass hpass) hstore ?_ ?_ ?_ hrow
            · exact (hraised attempt.job.id).trans (if_pos rfl)
            · rfl
            · rfl
      · next hrefused =>
          have hsome : (markWebhookFailed pass.policy attempt.job.id attempt.job.attempts
              errorMessage s.world.now s.world.store).isSome = true :=
            markWebhookFailed_isSome fun row hrow => h.holds.isOpen p attempt.job.id hheld row hrow
          rw [hrefused] at hsome
          cases hsome
  · cases hstep

/-! ## Runs -/

/-- **Every step keeps the accounts**, as long as no claimed job is given up. -/
theorem Accounts.step (h : Accounts maxAttempts s) (hmax : 1 ≤ maxAttempts)
    (hlimit : UnderLimit maxAttempts a) (hgiven : NoneGivenUp s.world a)
    (hnext : s.step reading a = some s') : Accounts maxAttempts s' := by
  obtain ⟨w', hstep, rfl⟩ := Option.map_eq_some_iff.mp hnext
  have hholds := holdsOpenJobs_step h.holds hgiven.claimsOnlyFree hstep
  cases a with
  | openPass p source policy =>
      simp only [QueueWorld.step] at hstep
      split at hstep
      · next hnone =>
          obtain rfl := Option.some.inj hstep
          refine h.of_sameJobs hholds ?_ ?_ ?_
          · rw [QueueWorld.held, Option.isNone_iff_eq_none.mp hnone]
            rfl
          · rintro _ ⟨rfl⟩
            exact hlimit
          · rintro _ ⟨rfl⟩
            refine ⟨?_, ?_⟩
            · intro _ hjob
              cases hjob
            · intro _ hattempt
              cases hattempt
      · cases hstep
  | claim p locked order =>
      obtain ⟨pass, hpass, hstep⟩ := Option.bind_eq_some_iff.mp hstep
      exact h.claim hpass hgiven hstep hholds
  | beginJob p =>
      obtain ⟨pass, hpass, hstep⟩ := Option.bind_eq_some_iff.mp hstep
      exact h.beginJob hpass hstep hholds
  | fetch p =>
      obtain ⟨pass, hpass, hstep⟩ := Option.bind_eq_some_iff.mp hstep
      simp only [QueueWorld.fetch] at hstep
      split at hstep
      · next job hcurrent =>
          obtain rfl := Option.some.inj hstep
          refine h.of_sameJobs hholds ?_ ?_ ?_
          · rw [QueueWorld.held_of_pass hpass, Pass.held, hcurrent]
            rfl
          · rintro _ ⟨rfl⟩
            exact h.policy p pass hpass
          · rintro _ ⟨rfl⟩
            refine ⟨h.waiting p pass hpass, ?_⟩
            intro attempt hattempt
            obtain rfl := Option.some.inj hattempt
            have howed := h.current p pass ⟨job, none⟩ hpass hcurrent
            exact howed
      · cases hstep
  | succeed p =>
      obtain ⟨pass, hpass, hstep⟩ := Option.bind_eq_some_iff.mp hstep
      exact h.succeed hpass hstep hholds
  | fail p errorMessage =>
      obtain ⟨pass, hpass, hstep⟩ := Option.bind_eq_some_iff.mp hstep
      exact h.fail hpass hstep hholds
  | leave p =>
      obtain ⟨pass, hpass, rfl⟩ := Option.map_eq_some_iff.mp hstep
      refine h.of_sameJobs hholds hgiven.symm ?_ ?_
      · intro _ hnone
        cases hnone
      · intro _ hnone
        cases hnone
  | _ => exact h.of_not_ofPass hmax rfl hstep

variable (reading) in
/-- **The retry limit holds as long as no claimed job is given up**: over every
interleaving of passes under one limit in which no pass leaves with jobs it has
claimed and no claim takes a job that is still held. -/
theorem retriesBounded_of_noneGivenUp (hmax : 1 ≤ maxAttempts) {now : ℕ}
    (h : Reaches (TalliedQueue.step reading)
      (fun s a => UnderLimit maxAttempts a ∧ NoneGivenUp s.world a) (.fresh now) s) :
    RetriesBounded maxAttempts s := by
  have haccounts : Accounts maxAttempts s := by
    refine h.invariant (accounts_fresh now) ?_
    intro t a t' ht hcond hstep
    exact ht.step hmax hcond.1 hcond.2 hstep
  exact haccounts.retriesBounded

end Tally

/-- One pass, under a limit of two, fails twice at its job. -/
theorem retriesBounded_failedTwice :
    ∃ s : TalliedQueue WebhookPayload WebhookPayload,
      (s.world.store.rows.row 1).map QueueRow.status = some .deadLetter ∧
        s.tally.raised 1 = 2 ∧ RetriesBounded 2 s := by
  have hfree : ∀ s : TalliedQueue WebhookPayload WebhookPayload, (∀ q, s.world.held q = []) →
      UnderLimit 2 (.claim 0 ∅ [1] : QueueAction WebhookPayload) ∧
        NoneGivenUp s.world (.claim 0 ∅ [1]) := by
    intro s hs
    refine ⟨trivial, fun id _ q => ?_⟩
    rw [hs]
    exact List.not_mem_nil
  have haccepted : Reaches (TalliedQueue.step plainReading)
      (fun s a => UnderLimit 2 a ∧ NoneGivenUp s.world a) (.fresh 0) _ :=
    Reaches.refl.tail (a := .accept .sonarr seriesOnePayload) ⟨trivial, trivial⟩ rfl
  have hopened :=
    haccepted.tail (a := QueueAction.openPass 0 .sonarr { maxAttempts := 2 }) ⟨rfl, trivial⟩ rfl
  have hclaimed := hopened.tail (hfree _ fun q => by
    by_cases hq : q = 0
    · subst hq
      rfl
    · simp [QueueWorld.held, QueueWorld.setPass, Function.update_of_ne hq, TalliedQueue.fresh,
        QueueWorld.idle]) rfl
  have hbegun := hclaimed.tail (a := QueueAction.beginJob 0) ⟨trivial, trivial⟩ rfl
  have hfailed := hbegun.tail (a := QueueAction.fail 0 "timeout") ⟨trivial, trivial⟩ rfl
  have hlater := hfailed.tail (a := QueueAction.tick 30) ⟨trivial, trivial⟩ rfl
  have hagain := hlater.tail (hfree _ fun q => by
    by_cases hq : q = 0
    · subst hq
      rfl
    · simp [QueueWorld.held, QueueWorld.setPass, Function.update_of_ne hq, TalliedQueue.fresh,
        QueueWorld.idle]) rfl
  have hbegun' := hagain.tail (a := QueueAction.beginJob 0) ⟨trivial, trivial⟩ rfl
  have hfailed' := hbegun'.tail (a := QueueAction.fail 0 "timeout") ⟨trivial, trivial⟩ rfl
  refine ⟨_, ?_, ?_, retriesBounded_of_noneGivenUp plainReading (by decide) hfailed'⟩
  · rfl
  · rfl

/-! ## Claims given up -/

/-- A pass takes job 1 and is told to stop before it begins it. -/
def stoppedPass : List (QueueAction WebhookPayload) :=
  [.openPass 0 .sonarr {}, .claim 0 ∅ [1], .leave 0, .tick 120]

/-- A pass dies while it is at job 1. -/
def crashedPass : List (QueueAction WebhookPayload) :=
  [.openPass 0 .sonarr {}, .claim 0 ∅ [1], .beginJob 0, .leave 0, .tick 120]

/-- The job is dead after its first failure. -/
def stoppedRun : List (QueueAction WebhookPayload) :=
  .accept .sonarr seriesOnePayload ::
    (stoppedPass ++ stoppedPass ++ stoppedPass ++ stoppedPass ++
      [.openPass 0 .sonarr {}, .claim 0 ∅ [1], .beginJob 0, .fail 0 "timeout"])

/-- The job is begun six times. -/
def crashedRun : List (QueueAction WebhookPayload) :=
  .accept .sonarr seriesOnePayload ::
    (crashedPass ++ crashedPass ++ crashedPass ++ crashedPass ++ crashedPass ++ crashedPass)

instance (maxAttempts : ℕ) (a : QueueAction WebhookPayload) :
    Decidable (UnderLimit maxAttempts a) := by
  unfold UnderLimit
  split <;> infer_instance

/-- Under the default limit of five, a job that four passes claim and give up
is dead after one failure, and one that passes die at is begun a sixth time. -/
theorem not_retriesBounded_givenUp :
    (∃ s : TalliedQueue WebhookPayload WebhookPayload,
      Reaches (TalliedQueue.step plainReading) (fun _ a => UnderLimit 5 a) (.fresh 0) s ∧
        s.tally.raised 1 = 1 ∧ ¬ RetriesBounded 5 s) ∧
      ∃ s : TalliedQueue WebhookPayload WebhookPayload,
        Reaches (TalliedQueue.step plainReading) (fun _ a => UnderLimit 5 a) (.fresh 0) s ∧
          s.tally.started 1 = 6 ∧ ¬ RetriesBounded 5 s := by
  have hstopped : (replay (TalliedQueue.step plainReading) stoppedRun (.fresh 0)).map
      (fun s => ((s.world.store.rows.row 1).map QueueRow.status, s.tally.raised 1)) =
        some (some .deadLetter, 1) := by decide +kernel
  have hcrashed : (replay (TalliedQueue.step plainReading) crashedRun (.fresh 0)).map
      (fun s => (s.tally.requeued 1, s.tally.started 1)) = some (false, 6) := by decide +kernel
  constructor
  · obtain ⟨s, hrun, hend⟩ := Option.map_eq_some_iff.mp hstopped
    obtain ⟨hdead, hraised⟩ := Prod.mk.inj hend
    obtain ⟨row, hrow, hstatus⟩ := Option.map_eq_some_iff.mp hdead
    refine ⟨s, reaches_of_replay ?_ hrun, hraised, ?_⟩
    · have hlimit : ∀ a ∈ stoppedRun, UnderLimit 5 a := by decide
      exact fun a ha _ => hlimit a ha
    · intro hbounded
      have hle := hbounded.deadLetter 1 row hrow hstatus
      omega
  · obtain ⟨s, hrun, hend⟩ := Option.map_eq_some_iff.mp hcrashed
    obtain ⟨hnot, hstarted⟩ := Prod.mk.inj hend
    refine ⟨s, reaches_of_replay ?_ hrun, hstarted, ?_⟩
    · have hlimit : ∀ a ∈ crashedRun, UnderLimit 5 a := by decide
      exact fun a ha _ => hlimit a ha
    · intro hbounded
      have hle := hbounded.started 1 hnot
      omega

end Nebularr
