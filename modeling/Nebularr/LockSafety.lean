import Nebularr.JobLocks

/-!
# Who is in a locked section

**Syncs.**  A process uses one owner id for all its syncs, so a heartbeat or a
release cannot tell a run from the one that took over its lease: a run that
has outlived its lease renews or deletes its successor's.  That does not
happen as long as a lock is not given to a process that is still at it
(`SameProcessDone`), and while nobody clears locks and no lease runs out on
its holder (`Undisturbed`), there is one run in a section at most.

**Automations.**  A run has an owner id of its own, and its release touches no
other lease; but it never renews the lease.  A run that takes longer than the
lease lets the next trigger in beside it.
-/

namespace Nebularr

/-! ## Inside -/

section Inside

variable {O : Type}

/-- Whoever is inside took the lease, and it has not run out. -/
def Leased (w : LockWorld O) : Prop :=
  ∀ r lockName, w.Inside r lockName → w.acquiredBy lockName = some r ∧
    ∃ row, w.locks.row lockName = some row ∧ w.now ≤ row.expiresAt

/-- Where whoever is inside has the lease, one at most is. -/
theorem Leased.atMostOneInside {w : LockWorld O} (h : Leased w) : w.AtMostOneInside := by
  intro r r' lockName hr hr'
  have hfirst := (h r lockName hr).1
  have hsecond := (h r' lockName hr').1
  rw [hfirst] at hsecond
  exact Option.some.inj hsecond

/-- Who is inside after a quiet step was inside before. -/
theorem LockWorld.Quiet.inside {w w' : LockWorld O} (h : LockWorld.Quiet w w') {r : ℕ}
    {lockName : String} (hinside : w'.Inside r lockName) : w.Inside r lockName := by
  obtain ⟨run', hrun', hin, hname⟩ := hinside
  obtain ⟨run, hrun, -, hsameName, -, hstill⟩ := h.runs r run' hrun'
  exact ⟨run, hrun, hstill hin, hsameName.trans hname⟩

end Inside

/-! ## Syncs -/

section Syncs

variable {O : Type} [DecidableEq O]

/-- The lock is given to nobody whose process is still at it. -/
def SameProcessDone (w : LockWorld O) : LockAction O → Prop
  | .enter ownerId lockName =>
      (tryJobLock w.now lockName ownerId w.locks).2 = true →
        ∀ r run, w.runs r = some run → run.lockName = lockName → run.ownerId ≠ ownerId
  | _ => True

/-- Nobody clears the lock of a section that is in use, and no lease runs out
before its holder has renewed it. -/
def Undisturbed (w : LockWorld O) : LockAction O → Prop
  | .clear request => ∀ r lockName, w.Inside r lockName → request.removes lockName = false
  | .tick seconds => ∀ r lockName row, w.Inside r lockName → w.acquiredBy lockName = some r →
      w.locks.row lockName = some row → w.now + seconds ≤ row.expiresAt
  | _ => True

/-- A lease with the owner id of a run that is at it was taken by that run. -/
def OwnersApart (w : LockWorld O) : Prop :=
  ∀ r run row, w.runs r = some run → w.locks.row run.lockName = some row →
    row.ownerId = run.ownerId → w.acquiredBy run.lockName = some r

/-- **One step** keeps the owners apart. -/
theorem OwnersApart.step {w w' : LockWorld O} {a : LockAction O} (h : OwnersApart w)
    (ha : SameProcessDone w a) (hstep : w.step a = some w') : OwnersApart w' := by
  rcases LockWorld.step_cases hstep with ⟨ownerId, lockName, rfl, rfl⟩ | hquiet
  · rcases w.enter_cases ownerId lockName with
      ⟨hskipped, -⟩ | ⟨hfree, -, -, hacquired, hruns, hrow, hother⟩
    · rw [hskipped]
      exact h
    · intro r run row hrun hheld howner
      rw [hruns] at hrun
      rw [hacquired]
      by_cases hr : r = w.started
      · subst hr
        rw [Function.update_self] at hrun
        obtain rfl := Option.some.inj hrun
        rw [Function.update_self]
      · rw [Function.update_of_ne hr] at hrun
        by_cases hname : run.lockName = lockName
        · have hgot : (tryJobLock w.now lockName ownerId w.locks).2 = true := by
            rcases @tryJobLock_cases O w.now lockName ownerId w.locks with
              ⟨-, -, row', hrow', hle⟩ | ⟨hgot, -⟩
            · exact absurd (hfree row' hrow') (Nat.not_lt.mpr hle)
            · exact hgot
          rw [hname, hrow] at hheld
          obtain rfl := Option.some.inj hheld
          exact absurd howner.symm (ha hgot r run hrun hname)
        · rw [hother run.lockName hname] at hheld
          rw [Function.update_of_ne hname]
          exact h r run row hrun hheld howner
  · intro r run' row' hrun' hheld' howner
    obtain ⟨run, hrun, hsameOwner, hsameName, -, -⟩ := hquiet.runs r run' hrun'
    rw [← hsameName] at hheld' ⊢
    obtain ⟨row, hheld, hrowOwner⟩ := hquiet.rows _ row' hheld'
    rw [hquiet.acquiredBy]
    exact h r run row hrun hheld (by rw [hrowOwner, howner, hsameOwner])

/-- Then heartbeats and releases keep to the run's own lease. -/
theorem OwnersApart.onlyOwnLease {w : LockWorld O} (h : OwnersApart w) : w.OnlyOwnLease := by
  intro r w' hstep lockName hchanged
  rcases hstep with hbeat | hrelease
  · obtain ⟨run, hrun, hbeat⟩ := Option.bind_eq_some_iff.mp hbeat
    split at hbeat
    · obtain rfl := Option.some.inj hbeat
      obtain ⟨rfl, row, hrow, howner⟩ := LockWorld.changed_heartbeatJobLock hchanged
      exact h r run row hrun hrow howner
    · cases hbeat
  · obtain ⟨run, hrun, hrelease⟩ := Option.bind_eq_some_iff.mp hrelease
    split at hrelease
    · obtain rfl := Option.some.inj hrelease
      obtain ⟨rfl, row, hrow, howner⟩ := LockWorld.changed_releaseJobLock hchanged
      exact h r run row hrun hrow howner
    · cases hrelease

omit [DecidableEq O] in
/-- Whoever gets the lock finds nobody inside. -/
theorem Leased.enter {w : LockWorld O} (h : Leased w) (ownerId : O) (lockName : String) :
    Leased (w.enter ownerId lockName) := by
  rcases w.enter_cases ownerId lockName with
    ⟨hskipped, -⟩ | ⟨hfree, hnow, -, hacquired, hruns, hrow, hother⟩
  · rw [hskipped]
    exact h
  · rintro r name ⟨run, hrun, hin, hname⟩
    rw [hruns] at hrun
    rw [hacquired, hnow]
    by_cases hr : r = w.started
    · subst hr
      rw [Function.update_self] at hrun
      obtain rfl := Option.some.inj hrun
      subst hname
      exact ⟨Function.update_self _ _ _, _, hrow, Nat.le_add_right _ _⟩
    · rw [Function.update_of_ne hr] at hrun
      obtain ⟨hby, row, hheld, hle⟩ := h r name ⟨run, hrun, hin, hname⟩
      have hne : name ≠ lockName := by
        intro heq
        subst heq
        exact absurd (hfree row hheld) (Nat.not_lt.mpr hle)
      rw [Function.update_of_ne hne, hother name hne]
      exact ⟨hby, row, hheld, hle⟩

/-- A release takes away nobody else's lease. -/
theorem Leased.release {w : LockWorld O} (h : Leased w) {r r' : ℕ} {run : LockedRun O}
    {name : String} (hrun : w.runs r = some run) (hin : run.inside = true)
    (hinside : (w.release r run).Inside r' name) :
    (w.release r run).locks.row name = w.locks.row name := by
  obtain ⟨run', hrun', hin', hname⟩ := hinside
  obtain ⟨hother, hbefore⟩ := LockWorld.of_inside_release hrun' hin'
  have hne : name ≠ run.lockName := by
    intro heq
    have hboth :=
      h.atMostOneInside r' r name ⟨run', hbefore, hin', hname⟩ ⟨run, hrun, hin, heq.symm⟩
    exact hother hboth
  have hafter : (releaseJobLock run.lockName run.ownerId w.locks).row name =
      (w.locks.row name).filter _ := row_releaseJobLock
  refine hafter.trans ?_
  cases w.locks.row name with
  | none => rfl
  | some row => simp [hne]

/-- **One step** that is not disturbed keeps the lease with who is inside. -/
theorem Leased.step {w w' : LockWorld O} {a : LockAction O} (h : Leased w)
    (ha : Undisturbed w a) (hstep : w.step a = some w') : Leased w' := by
  rcases LockWorld.step_cases hstep with ⟨ownerId, lockName, rfl, rfl⟩ | hquiet
  · exact h.enter ownerId lockName
  · intro r name hinside
    have hbefore := hquiet.inside hinside
    obtain ⟨hby, row, hheld, hle⟩ := h r name hbefore
    rw [hquiet.acquiredBy]
    refine ⟨hby, ?_⟩
    cases a with
    | enter ownerId lockName =>
        obtain rfl := Option.some.inj hstep
        exact (h.enter ownerId lockName r name hinside).2
    | tick seconds =>
        obtain rfl := Option.some.inj hstep
        exact ⟨row, hheld, ha r name row hbefore hby hheld⟩
    | clear request =>
        obtain rfl := Option.some.inj hstep
        refine ⟨row, ?_, hle⟩
        rw [row_clearStuck, hheld, Option.filter_some, ha r name hbefore]
        rfl
    | crash r' =>
        obtain ⟨run, -, rfl⟩ := Option.map_eq_some_iff.mp hstep
        exact ⟨row, hheld, hle⟩
    | sendHeartbeat r' =>
        obtain ⟨run, -, hsend⟩ := Option.bind_eq_some_iff.mp hstep
        split at hsend
        · obtain rfl := Option.some.inj hsend
          exact ⟨row, hheld, hle⟩
        · cases hsend
    | heartbeat r' =>
        obtain ⟨run, -, hbeat⟩ := Option.bind_eq_some_iff.mp hstep
        split at hbeat
        · obtain rfl := Option.some.inj hbeat
          have hafter : (heartbeatJobLock w.now run.lockName run.ownerId w.locks).row name =
              (w.locks.row name).map _ := row_heartbeatJobLock
          rw [hheld, Option.map_some] at hafter
          refine ⟨_, hafter, ?_⟩
          split
          · exact Nat.le_add_right _ _
          · exact hle
        · cases hbeat
    | release r' =>
        obtain ⟨run, hrun, hrelease⟩ := Option.bind_eq_some_iff.mp hstep
        split at hrelease
        · next hin =>
            obtain rfl := Option.some.inj hrelease
            exact ⟨row, (h.release hrun hin hinside).trans hheld, hle⟩
        · cases hrelease

/-- **The lease of a sync.**  While no lock is given to a process that is still
at it, heartbeats and releases touch only the run's own lease; while nobody is
disturbed, a section has one run at most. -/
theorem sync_lease_safe {w : LockWorld O} :
    (Reaches LockWorld.step SameProcessDone .idle w → w.OnlyOwnLease) ∧
      (Reaches LockWorld.step Undisturbed .idle w → w.AtMostOneInside) := by
  constructor
  · intro h
    have hapart : OwnersApart w := h.invariant
      (show OwnersApart .idle from fun r run row hrun => nomatch hrun)
      fun s a s' hs ha hstep => hs.step ha hstep
    exact hapart.onlyOwnLease
  · intro h
    have hleased : Leased w := h.invariant
      (show Leased .idle from fun r lockName hinside => nomatch hinside)
      fun s a s' hs ha hstep => hs.step ha hstep
    exact hleased.atMostOneInside

/-- Where a lock is given to a process whose earlier run is still inside, that
run's release is its successor's. -/
theorem not_onlyOwnLease_of_shared {w : LockWorld O} {r : ℕ} {run : LockedRun O}
    (hrun : w.runs r = some run) (hin : run.inside = true) (hr : r < w.started)
    (hgot : (tryJobLock w.now run.lockName run.ownerId w.locks).2 = true) :
    ¬ (w.enter run.ownerId run.lockName).OnlyOwnLease := by
  intro honly
  rcases w.enter_cases run.ownerId run.lockName with
    ⟨-, row, hrow, hle⟩ | ⟨-, -, -, hacquired, hruns, hrow, -⟩
  · rcases @tryJobLock_cases O w.now run.lockName run.ownerId w.locks with
      ⟨hskipped, -⟩ | ⟨-, hfree, -⟩
    · rw [hgot] at hskipped
      cases hskipped
    · exact absurd (hfree row hrow) (Nat.not_lt.mpr hle)
  · have hne : r ≠ w.started := Nat.ne_of_lt hr
    have hstill : (w.enter run.ownerId run.lockName).runs r = some run := by
      rw [hruns, Function.update_of_ne hne, hrun]
    have hstep : (w.enter run.ownerId run.lockName).step (.release r) =
        some ((w.enter run.ownerId run.lockName).release r run) := by
      rw [LockWorld.step, hstill, Option.bind_some, if_pos hin]
    have hgone : ((w.enter run.ownerId run.lockName).release r run).locks.row run.lockName =
        none := by
      have hafter : (releaseJobLock run.lockName run.ownerId
          (w.enter run.ownerId run.lockName).locks).row run.lockName =
            ((w.enter run.ownerId run.lockName).locks.row run.lockName).filter _ :=
        row_releaseJobLock
      rw [hrow, Option.filter_some, if_neg (by simp)] at hafter
      exact hafter
    have hmine := honly r _ (Or.inr hstep) run.lockName (by rw [hgone, hrow]; simp)
    rw [hacquired, Function.update_self] at hmine
    exact hne (Option.some.inj hmine).symm

end Syncs

/-! ### A sync that outlives its lease

No heartbeat of run 0 gets through for half an hour, and the process starts
run 1, which takes the lease over. -/

def outlivedLease : List (LockAction String) :=
  [.enter "service" "sonarr:full", .tick 1801]

/-- A sync that outlives its lease releases that of its successor. -/
theorem stale_sync_releases_successor :
    ∃ w w', Reachable LockWorld.step (.idle : LockWorld String) w ∧
      w.step (.enter "service" "sonarr:full") = some w' ∧ ¬ w'.OnlyOwnLease := by
  have hready : (replay LockWorld.step outlivedLease .idle).bind (fun w => (w.runs 0).map
      fun run => (run.ownerId, run.lockName, run.inside, decide (0 < w.started),
        (tryJobLock w.now "sonarr:full" "service" w.locks).2)) =
      some ("service", "sonarr:full", true, true, true) := by decide
  obtain ⟨w, hw, hrun⟩ := Option.bind_eq_some_iff.mp hready
  obtain ⟨run, hrun, hfields⟩ := Option.map_eq_some_iff.mp hrun
  simp only [Prod.mk.injEq, decide_eq_true_eq] at hfields
  obtain ⟨howner, hname, hin, hstarted, hgot⟩ := hfields
  rw [← howner, ← hname] at hgot ⊢
  exact ⟨w, _, reachable_of_replay hw, rfl, not_onlyOwnLease_of_shared hrun hin hstarted hgot⟩

/-! ### Two processes -/

section Numbered

variable {O : Type} [DecidableEq O] {w w' : LockWorld O} {a : LockAction O}

/-- The numbers not given yet are nobody's. -/
def LockWorld.Numbered (w : LockWorld O) : Prop := ∀ r, w.started ≤ r → w.runs r = none

/-- **One step** gives no number twice. -/
theorem LockWorld.Numbered.step (h : w.Numbered) (hstep : w.step a = some w') : w'.Numbered := by
  intro r hr
  rcases LockWorld.step_cases hstep with ⟨ownerId, lockName, rfl, rfl⟩ | hquiet
  · rcases w.enter_cases ownerId lockName with ⟨hskipped, -⟩ | ⟨-, -, hstarted, -, hruns, -⟩
    · rw [hskipped] at hr ⊢
      exact h r hr
    · have hnew : r ≠ w.started := by omega
      rw [hruns, Function.update_of_ne hnew]
      exact h r (by omega)
  · rw [hquiet.started] at hr
    rcases hafter : w'.runs r with _ | run'
    · rfl
    · obtain ⟨run, hrun, -⟩ := hquiet.runs r run' hafter
      rw [h r hr] at hrun
      cases hrun

/-- Whether a run lets a step pass. -/
def LockedRun.permits (run : LockedRun O) (w : LockWorld O) : LockAction O → Bool
  | .enter ownerId lockName =>
      !((tryJobLock w.now lockName ownerId w.locks).2 &&
        decide (run.lockName = lockName) && decide (run.ownerId = ownerId))
  | .tick seconds => !run.inside ||
      (w.locks.row run.lockName).all fun row => decide (w.now + seconds ≤ row.expiresAt)
  | .clear request => !run.inside || !request.removes run.lockName
  | _ => true

/-- Whether all runs do. -/
def LockWorld.permits (w : LockWorld O) (a : LockAction O) : Bool :=
  (List.range w.started).all fun r => (w.runs r).all fun run => run.permits w a

/-- Such a step meets both conditions. -/
theorem LockWorld.Numbered.permitted (h : w.Numbered) (hpermits : w.permits a = true) :
    SameProcessDone w a ∧ Undisturbed w a := by
  have hall : ∀ r run, w.runs r = some run → run.permits w a = true := by
    intro r run hrun
    have hlt : r < w.started := by
      by_contra hle
      rw [h r (Nat.le_of_not_lt hle)] at hrun
      cases hrun
    have hr := List.all_eq_true.mp hpermits r (List.mem_range.mpr hlt)
    rwa [hrun] at hr
  cases a with
  | enter ownerId lockName =>
      refine ⟨?_, trivial⟩
      intro hgot r run hrun hname howner
      simpa [LockedRun.permits, hgot, hname, howner] using hall r run hrun
  | tick seconds =>
      refine ⟨trivial, ?_⟩
      rintro r lockName row ⟨run, hrun, hin, rfl⟩ - hrow
      simpa [LockedRun.permits, hin, hrow] using hall r run hrun
  | clear request =>
      refine ⟨trivial, ?_⟩
      rintro r lockName ⟨run, hrun, hin, rfl⟩
      simpa [LockedRun.permits, hin] using hall r run hrun
  | _ => exact ⟨trivial, trivial⟩

end Numbered

/-- A sync of the first process renews its lease and keeps the second process
out.  It dies, the lease runs out, and the second process takes it over, leaves
with a heartbeat under way, and the first process syncs again. -/
def nightAndMorning : List (LockAction String) :=
  [.enter "first" "sonarr:full", .tick 1500, .sendHeartbeat 0, .heartbeat 0, .tick 600,
    .enter "second" "sonarr:full", .crash 0, .tick 1201, .enter "second" "sonarr:full",
    .sendHeartbeat 1, .tick 100, .release 1, .enter "first" "sonarr:full"]

/-- A lease that is renewed, given up and taken over. -/
theorem sync_lease_safe_takeover :
    ∃ w : LockWorld String, w.started = 3 ∧
      (w.locks.row "sonarr:full").map JobLock.ownerId = some "first" ∧
      (w.step (.heartbeat 1)).isSome = true ∧ w.OnlyOwnLease ∧ w.AtMostOneInside := by
  have hran : (replay (guardedStep LockWorld.step fun w a => w.permits a = true) nightAndMorning
      .idle).map (fun w => (w.started, (w.locks.row "sonarr:full").map JobLock.ownerId,
        (w.step (.heartbeat 1)).isSome)) = some (3, some "first", true) := by decide
  obtain ⟨w, hw, hfields⟩ := Option.map_eq_some_iff.mp hran
  simp only [Prod.mk.injEq] at hfields
  obtain ⟨hstarted, howner, hbeat⟩ := hfields
  obtain ⟨hreach, -⟩ : Reaches LockWorld.step (fun w a => SameProcessDone w a ∧ Undisturbed w a)
      .idle w ∧ w.Numbered :=
    (reaches_of_replay_guardedStep hw).refine (fun _ _ => rfl) fun _ _ _ hnumbered hpermits hstep =>
      ⟨hnumbered.permitted hpermits, hnumbered.step hstep⟩
  exact ⟨w, hstarted, howner, hbeat, sync_lease_safe.1 (hreach.mono fun _ _ h => h.1),
    sync_lease_safe.2 (hreach.mono fun _ _ h => h.2)⟩

/-! ## Automations -/

/-- What the runs of automations do: they take their lock with an owner id of
their own, here their number, and never renew it. -/
inductive AutomationAction
  | trigger (automationId : ℕ)
  | tick (seconds : ℕ)
  | finish (run : ℕ)
  | crash (run : ℕ)

/-- `f"automation:{automation_id}"`. -/
def automationLock (automationId : ℕ) : String := "automation:" ++ toString automationId

/-- The lock side of `AutomationService.run`. -/
def automationStep (w : LockWorld ℕ) : AutomationAction → Option (LockWorld ℕ)
  | .trigger automationId => w.step (.enter w.started (automationLock automationId))
  | .tick seconds => w.step (.tick seconds)
  | .finish r => w.step (.release r)
  | .crash r => w.step (.crash r)

/-- A run of the automation is between its lock and its release. -/
def Executing (w : LockWorld ℕ) (r automationId : ℕ) : Prop :=
  w.Inside r (automationLock automationId)

/-- No two runs of one automation at the same time. -/
def OneRunPerAutomation (w : LockWorld ℕ) : Prop :=
  ∀ r r' automationId, Executing w r automationId → Executing w r' automationId → r = r'

/-- A trigger comes at most half an hour after the start of any run of the
automation that is still executing. -/
def TriggeredInTime (w : LockWorld ℕ) : AutomationAction → Prop
  | .trigger automationId => ∀ r run, w.runs r = some run → run.inside = true →
      run.lockName = automationLock automationId → w.now ≤ run.startedAt + leaseSeconds
  | _ => True

/-- Owner ids are run numbers, in the table as among the runs. -/
structure OwnersAreRuns (w : LockWorld ℕ) : Prop where
  runs : ∀ r run, w.runs r = some run → run.ownerId = r
  rows : ∀ name row, w.locks.row name = some row → w.acquiredBy name = some row.ownerId

/-- **One step** leaves every lease with a run. -/
theorem OwnersAreRuns.step {w w' : LockWorld ℕ} {a : AutomationAction} (h : OwnersAreRuns w)
    (hstep : automationStep w a = some w') : OwnersAreRuns w' := by
  have hquiet : LockWorld.Quiet w w' → OwnersAreRuns w' := by
    intro hquiet
    refine ⟨fun r run' hrun' => ?_, fun name row' hrow' => ?_⟩
    · obtain ⟨run, hrun, howner, -⟩ := hquiet.runs r run' hrun'
      rw [← howner]
      exact h.runs r run hrun
    · obtain ⟨row, hrow, howner⟩ := hquiet.rows name row' hrow'
      rw [hquiet.acquiredBy, ← howner]
      exact h.rows name row hrow
  cases a with
  | tick seconds =>
      exact hquiet (LockWorld.step_quiet (a := .tick seconds) hstep fun _ _ h => nomatch h)
  | finish r => exact hquiet (LockWorld.step_quiet (a := .release r) hstep fun _ _ h => nomatch h)
  | crash r => exact hquiet (LockWorld.step_quiet (a := .crash r) hstep fun _ _ h => nomatch h)
  | trigger automationId =>
      obtain rfl := Option.some.inj hstep
      rcases w.enter_cases w.started (automationLock automationId) with
        ⟨hskipped, -⟩ | ⟨-, -, -, hacquired, hruns, hrow, hother⟩
      · rw [hskipped]
        exact h
      · refine ⟨fun r run hrun => ?_, fun name row hheld => ?_⟩
        · rw [hruns] at hrun
          by_cases hr : r = w.started
          · subst hr
            rw [Function.update_self] at hrun
            obtain rfl := Option.some.inj hrun
            rfl
          · rw [Function.update_of_ne hr] at hrun
            exact h.runs r run hrun
        · rw [hacquired]
          by_cases hname : name = automationLock automationId
          · subst hname
            rw [hrow] at hheld
            obtain rfl := Option.some.inj hheld
            exact Function.update_self _ _ _
          · rw [hother name hname] at hheld
            rw [Function.update_of_ne hname]
            exact h.rows name row hheld

/-- The release of an automation run touches its own lease only. -/
theorem OwnersAreRuns.onlyOwnLease {w : LockWorld ℕ} (h : OwnersAreRuns w) : w.OnlyOwnLease := by
  have hapart : OwnersApart w := by
    intro r run row hrun hrow howner
    rw [h.rows _ row hrow, howner, h.runs r run hrun]
  exact hapart.onlyOwnLease

/-- Every executing run has its lease in the table as it took it. -/
def HoldsOwnLease (w : LockWorld ℕ) : Prop :=
  ∀ r run, w.runs r = some run → run.inside = true →
    w.locks.row run.lockName = some ⟨r, run.startedAt, run.startedAt, run.startedAt + leaseSeconds⟩

/-- **One step** in time leaves every run its lease. -/
theorem HoldsOwnLease.step {w w' : LockWorld ℕ} {a : AutomationAction} (h : HoldsOwnLease w)
    (howners : OwnersAreRuns w) (ha : TriggeredInTime w a) (hstep : automationStep w a = some w') :
    HoldsOwnLease w' := by
  cases a with
  | tick seconds =>
      obtain rfl := Option.some.inj hstep
      exact h
  | crash r =>
      obtain ⟨run, -, rfl⟩ := Option.map_eq_some_iff.mp hstep
      intro r' run' hrun' hin'
      by_cases hr : r' = r
      · subst hr
        simp [LockWorld.setRun] at hrun'
      · simp only [LockWorld.setRun, Function.update_of_ne hr] at hrun'
        exact h r' run' hrun' hin'
  | finish r =>
      obtain ⟨run, hrun, hrelease⟩ := Option.bind_eq_some_iff.mp hstep
      split at hrelease
      · obtain rfl := Option.some.inj hrelease
        intro r' run' hrun' hin'
        obtain ⟨hr, hbefore⟩ := LockWorld.of_inside_release hrun' hin'
        have hheld := h r' run' hbefore hin'
        have hafter : (releaseJobLock run.lockName run.ownerId w.locks).row run'.lockName =
            (w.locks.row run'.lockName).filter _ := row_releaseJobLock
        rw [howners.runs r run hrun, hheld, Option.filter_some, if_pos (by simp [hr])] at hafter
        rw [← howners.runs r run hrun] at hafter
        exact hafter
      · cases hrelease
  | trigger automationId =>
      obtain rfl := Option.some.inj hstep
      rcases w.enter_cases w.started (automationLock automationId) with
        ⟨hskipped, -⟩ | ⟨hfree, -, -, -, hruns, hrow, hother⟩
      · rw [hskipped]
        exact h
      · intro r run hrun hin
        rw [hruns] at hrun
        by_cases hr : r = w.started
        · subst hr
          rw [Function.update_self] at hrun
          obtain rfl := Option.some.inj hrun
          exact hrow
        · rw [Function.update_of_ne hr] at hrun
          have hheld := h r run hrun hin
          have hne : run.lockName ≠ automationLock automationId := by
            intro hname
            have hintime := ha r run hrun hin hname
            rw [hname] at hheld
            have hover := hfree _ hheld
            exact absurd hintime (Nat.not_le.mpr hover)
          rw [hother run.lockName hne]
          exact hheld

/-- Runs that hold their leases are of different automations. -/
theorem HoldsOwnLease.oneRunPerAutomation {w : LockWorld ℕ} (h : HoldsOwnLease w) :
    OneRunPerAutomation w := by
  rintro r r' automationId ⟨run, hrun, hin, hname⟩ ⟨run', hrun', hin', hname'⟩
  have hheld := h r run hrun hin
  have hheld' := h r' run' hrun' hin'
  rw [hname] at hheld
  rw [hname', hheld] at hheld'
  exact congrArg JobLock.ownerId (Option.some.inj hheld')

/-- **One run of an automation.**  A release never frees another run's lock, and
as long as no trigger comes when a run has been executing for more than half an
hour, an automation has one run at a time. -/
theorem automation_lease_safe {w : LockWorld ℕ} :
    (Reaches automationStep TriggeredInTime .idle w → OneRunPerAutomation w) ∧
      (Reachable automationStep .idle w → w.OnlyOwnLease) := by
  have hidle : OwnersAreRuns .idle :=
    ⟨fun r run hrun => (nomatch hrun), fun name row hrow => by simp [LockWorld.idle] at hrow⟩
  constructor
  · intro h
    let inv : LockWorld ℕ → Prop := fun w => OwnersAreRuns w ∧ HoldsOwnLease w
    have hinv : inv w := by
      refine h.invariant (show inv .idle from ⟨hidle, fun r run hrun => nomatch hrun⟩) ?_
      intro s a s' hs ha hstep
      exact ⟨hs.1.step hstep, hs.2.step hs.1 ha hstep⟩
    exact hinv.2.oneRunPerAutomation
  · intro h
    have howners : OwnersAreRuns w := h.invariant hidle fun s a s' hs _ hstep => hs.step hstep
    exact howners.onlyOwnLease

/-! ### An automation that outlives its lease -/

/-- A run that outlives its lease is doubled. -/
theorem slow_automation_runs_twice :
    ∃ w, Reachable automationStep .idle w ∧ ¬ OneRunPerAutomation w := by
  have hboth : (replay automationStep [.trigger 7, .tick 1801, .trigger 7] .idle).bind
      (fun w => (w.runs 0).bind fun run => (w.runs 1).map fun run' =>
        (run.inside, run.lockName, run'.inside, run'.lockName)) =
      some (true, automationLock 7, true, automationLock 7) := by decide
  obtain ⟨w, hw, hruns⟩ := Option.bind_eq_some_iff.mp hboth
  obtain ⟨run, hrun, hruns⟩ := Option.bind_eq_some_iff.mp hruns
  obtain ⟨run', hrun', hfields⟩ := Option.map_eq_some_iff.mp hruns
  simp only [Prod.mk.injEq] at hfields
  obtain ⟨hin, hname, hin', hname'⟩ := hfields
  refine ⟨w, reachable_of_replay hw, fun hone => ?_⟩
  cases hone 0 1 7 ⟨run, hrun, hin, hname⟩ ⟨run', hrun', hin', hname'⟩

/-- A trigger at the end of the half hour finds the automation running. -/
theorem trigger_in_time_is_skipped :
    ∃ w, replay automationStep [.trigger 7, .tick 1800, .trigger 7] .idle = some w ∧
      w.started = 1 ∧ OneRunPerAutomation w ∧ w.OnlyOwnLease := by
  have hintime : ∀ w : LockWorld ℕ, w.now = 1800 → TriggeredInTime w (.trigger 7) := by
    intro w hnow r run _ _ _
    rw [hnow]
    exact Nat.le_add_left _ _
  have hreach : Reaches automationStep TriggeredInTime .idle _ :=
    ((Reaches.refl.tail (show TriggeredInTime .idle (.trigger 7) from
      fun _ _ hrun => nomatch hrun) rfl).tail
        (show TriggeredInTime _ (.tick 1800) from trivial) rfl).tail (hintime _ rfl) rfl
  exact ⟨_, rfl, rfl, automation_lease_safe.1 hreach,
    automation_lease_safe.2 (hreach.mono fun _ _ _ => trivial)⟩

end Nebularr
