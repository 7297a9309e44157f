import Mathlib.Logic.Function.Basic
import Nebularr.KeyedTable
import Nebularr.Transitions

/-!
# Job locks

The leases of `app.job_lock` and the sections they guard.  A lease is taken
for a fixed time, may be taken over once it has run out, and is renewed and
released by owner id: a statement does not know which run it is for.

`LockWorld` is the table, the clock and the runs at work; which run took a
lease is a ghost.  Runs are started with any owner id and any lock name, so
the syncs of a process, which share an owner id, and the automations, whose
owner ids are their own, are both schedules of it.
-/

namespace Nebularr

/-! ## The table -/

/-- A row of `app.job_lock`; times are whole seconds. -/
structure JobLock (O : Type) where
  ownerId : O
  acquiredAt : ℕ
  heartbeatAt : ℕ
  expiresAt : ℕ
deriving DecidableEq, Repr

/-- The table, keyed by `lock_name`. -/
abbrev JobLocks (O : Type) := KeyedTable String (JobLock O)

/-- The default of `lease_seconds`. -/
def leaseSeconds : ℕ := 1800

section Statements

variable {O : Type}

/-- `try_job_lock`: a lease that has run out is taken over. -/
def tryJobLock (now : ℕ) (lockName : String) (ownerId : O) (t : JobLocks O) : JobLocks O × Bool :=
  let lease : JobLock O := ⟨ownerId, now, now, now + leaseSeconds⟩
  match t.row lockName with
  | none => (t.upsert lockName lease id, true)
  | some row =>
      if row.expiresAt < now then (t.upsert lockName lease fun _ => lease, true)
      else (t, false)

variable [DecidableEq O]

/-- `heartbeat_job_lock`. -/
def heartbeatJobLock (now : ℕ) (lockName : String) (ownerId : O) (t : JobLocks O) : JobLocks O :=
  t.updateWhere (fun name row => decide (name = lockName) && decide (row.ownerId = ownerId))
    fun row => { row with heartbeatAt := now, expiresAt := now + leaseSeconds }

/-- `release_job_lock`. -/
def releaseJobLock (lockName : String) (ownerId : O) (t : JobLocks O) : JobLocks O :=
  t.deleteWhere fun name row => decide (name = lockName) && decide (row.ownerId = ownerId)

end Statements

/-- What `operator_clear_stuck` is asked to clear. -/
structure ClearStuck where
  allJobLocks : Bool := false
  malIngestLock : Bool := true
  warehouseSyncLocks : Bool := false
deriving DecidableEq, Repr

/-- The lock names it removes. -/
def ClearStuck.removes (request : ClearStuck) (lockName : String) : Bool :=
  request.allJobLocks ||
    (request.malIngestLock && lockName == "mal:ingest") ||
      (request.warehouseSyncLocks &&
        ("sonarr:".toList.isPrefixOf lockName.toList ||
          "radarr:".toList.isPrefixOf lockName.toList))

/-- `operator_clear_stuck`, as far as locks go. -/
def clearStuck {O : Type} (request : ClearStuck) (t : JobLocks O) : JobLocks O :=
  t.deleteWhere fun name _ => request.removes name

/-! ## What the statements do to a row -/

section Rows

variable {O : Type} {now : ℕ} {lockName name : String} {ownerId : O} {t : JobLocks O}

/-- **Who gets the lock.**  Nobody while it is leased out; and whoever gets it
leaves the other locks alone. -/
theorem tryJobLock_cases :
    ((tryJobLock now lockName ownerId t).2 = false ∧ (tryJobLock now lockName ownerId t).1 = t ∧
        ∃ row, t.row lockName = some row ∧ now ≤ row.expiresAt) ∨
      ((tryJobLock now lockName ownerId t).2 = true ∧
        (∀ row, t.row lockName = some row → row.expiresAt < now) ∧
        (tryJobLock now lockName ownerId t).1.row lockName =
          some ⟨ownerId, now, now, now + leaseSeconds⟩ ∧
        ∀ name, name ≠ lockName → (tryJobLock now lockName ownerId t).1.row name = t.row name) := by
  unfold tryJobLock
  cases hrow : t.row lockName with
  | none =>
      refine Or.inr ⟨rfl, ?_, ?_, ?_⟩
      · exact fun row h => nomatch h
      · simp [hrow]
      · exact fun name hname => KeyedTable.row_upsert_of_ne hname _ _
  | some row =>
      by_cases hover : row.expiresAt < now
      · simp only [hover, if_true]
        refine Or.inr ⟨trivial, ?_, ?_, ?_⟩
        · intro row' h
          obtain rfl := Option.some.inj h
          exact hover
        · simp [hrow]
        · exact fun name hname => KeyedTable.row_upsert_of_ne hname _ _
      · simp only [hover, if_false]
        exact Or.inl ⟨trivial, trivial, row, rfl, Nat.not_lt.mp hover⟩

theorem row_clearStuck (request : ClearStuck) :
    (clearStuck request t).row name = (t.row name).filter fun _ => !request.removes name := by
  simp [clearStuck]

variable [DecidableEq O]

theorem row_heartbeatJobLock :
    (heartbeatJobLock now lockName ownerId t).row name =
      (t.row name).map fun row =>
        if name = lockName ∧ row.ownerId = ownerId then
          { row with heartbeatAt := now, expiresAt := now + leaseSeconds }
        else row := by
  simp [heartbeatJobLock]

theorem row_releaseJobLock :
    (releaseJobLock lockName ownerId t).row name =
      (t.row name).filter fun row =>
        !(decide (name = lockName) && decide (row.ownerId = ownerId)) := by
  simp [releaseJobLock]

end Rows

/-! ## Runs in a locked section -/

/-- A run with the lock name and the owner id it uses.  It is `inside` from the
lock it got to the release; a heartbeat it has sent may still be under way in
a worker thread when it has left. -/
structure LockedRun (O : Type) where
  ownerId : O
  lockName : String
  startedAt : ℕ
  inside : Bool := true
  beating : Bool := false

/-- The table, the clock and the runs, numbered as they get their lock.
`acquiredBy` is ghost: the run whose `try_job_lock` wrote the row. -/
structure LockWorld (O : Type) where
  locks : JobLocks O
  now : ℕ
  runs : ℕ → Option (LockedRun O)
  started : ℕ
  acquiredBy : String → Option ℕ

/-- What can happen.  A run that does not get the lock is skipped. -/
inductive LockAction (O : Type)
  | tick (seconds : ℕ)
  | enter (ownerId : O) (lockName : String)
  | sendHeartbeat (run : ℕ)
  | heartbeat (run : ℕ)
  | release (run : ℕ)
  | crash (run : ℕ)
  | clear (request : ClearStuck)

namespace LockWorld

variable {O : Type}

/-- Nobody at work. -/
def idle : LockWorld O := ⟨.empty, 0, fun _ => none, 0, fun _ => none⟩

variable (w : LockWorld O)

/-- Replace a run. -/
def setRun (r : ℕ) (run : Option (LockedRun O)) : LockWorld O :=
  { w with runs := Function.update w.runs r run }

/-- A run that takes the lock, or is skipped. -/
def enter (ownerId : O) (lockName : String) : LockWorld O :=
  let (locks, acquired) := tryJobLock w.now lockName ownerId w.locks
  if acquired then
    { w with
      locks := locks
      started := w.started + 1
      acquiredBy := Function.update w.acquiredBy lockName (some w.started) }.setRun w.started
        (some { ownerId := ownerId, lockName := lockName, startedAt := w.now })
  else w

variable [DecidableEq O]

/-- The heartbeat of a run commits. -/
def heartbeat (r : ℕ) (run : LockedRun O) : LockWorld O :=
  { w with locks := heartbeatJobLock w.now run.lockName run.ownerId w.locks }.setRun r
    (if run.inside then some { run with beating := false } else none)

/-- The run leaves the section and releases; a heartbeat may stay behind. -/
def release (r : ℕ) (run : LockedRun O) : LockWorld O :=
  { w with locks := releaseJobLock run.lockName run.ownerId w.locks }.setRun r
    (if run.beating then some { run with inside := false } else none)

/-- **Locks, clock and runs.** -/
def step {O : Type} [DecidableEq O] (w : LockWorld O) : LockAction O → Option (LockWorld O)
  | .tick seconds => some { w with now := w.now + seconds }
  | .enter ownerId lockName => some (w.enter ownerId lockName)
  | .sendHeartbeat r => (w.runs r).bind fun run =>
      if run.inside then some (w.setRun r (some { run with beating := true })) else none
  | .heartbeat r => (w.runs r).bind fun run =>
      if run.beating then some (w.heartbeat r run) else none
  | .release r => (w.runs r).bind fun run =>
      if run.inside then some (w.release r run) else none
  | .crash r => (w.runs r).map fun _ => w.setRun r none
  | .clear request => some { w with locks := clearStuck request w.locks }

/-- The run is in its locked section. -/
def Inside (r : ℕ) (lockName : String) : Prop :=
  ∃ run, w.runs r = some run ∧ run.inside = true ∧ run.lockName = lockName

/-- At most one run is in the section of a lock. -/
def AtMostOneInside : Prop :=
  ∀ r r' lockName, w.Inside r lockName → w.Inside r' lockName → r = r'

/-- A heartbeat or a release of a run changes no lease that another run took. -/
def OnlyOwnLease : Prop :=
  ∀ r w', w.step (.heartbeat r) = some w' ∨ w.step (.release r) = some w' →
    ∀ lockName, w'.locks.row lockName ≠ w.locks.row lockName → w.acquiredBy lockName = some r

end LockWorld

/-! ## What a step does -/

section Steps

variable {O : Type} {w w' : LockWorld O}

namespace LockWorld

/-- A step that starts nobody: the runs are those there were, a lease keeps its
owner while it is there, and the ghosts stay. -/
structure Quiet (w w' : LockWorld O) : Prop where
  runs : ∀ r run', w'.runs r = some run' → ∃ run, w.runs r = some run ∧
    run.ownerId = run'.ownerId ∧ run.lockName = run'.lockName ∧ run.startedAt = run'.startedAt ∧
      (run'.inside = true → run.inside = true)
  rows : ∀ name row', w'.locks.row name = some row' → ∃ row, w.locks.row name = some row ∧
    row.ownerId = row'.ownerId
  started : w'.started = w.started
  acquiredBy : w'.acquiredBy = w.acquiredBy

/-- Replacing a run by a later state of itself, or by nothing. -/
private theorem runs_setRun {r : ℕ} {run : LockedRun O} {next : Option (LockedRun O)}
    (hrun : w.runs r = some run)
    (hnext : ∀ run', next = some run' → run.ownerId = run'.ownerId ∧
      run.lockName = run'.lockName ∧ run.startedAt = run'.startedAt ∧
        (run'.inside = true → run.inside = true)) :
    ∀ r' run', (w.setRun r next).runs r' = some run' → ∃ run, w.runs r' = some run ∧
      run.ownerId = run'.ownerId ∧ run.lockName = run'.lockName ∧
        run.startedAt = run'.startedAt ∧ (run'.inside = true → run.inside = true) := by
  intro r' run' h
  by_cases heq : r' = r
  · subst heq
    simp only [setRun, Function.update_self] at h
    exact ⟨run, hrun, hnext run' h⟩
  · simp only [setRun, Function.update_of_ne heq] at h
    exact ⟨run', h, rfl, rfl, rfl, id⟩

/-- **A run that enters**, or is skipped: it gets the lock when nobody has an
unexpired lease on it. -/
theorem enter_cases (ownerId : O) (lockName : String) :
    (w.enter ownerId lockName = w ∧
        ∃ row, w.locks.row lockName = some row ∧ w.now ≤ row.expiresAt) ∨
      ((∀ row, w.locks.row lockName = some row → row.expiresAt < w.now) ∧
        (w.enter ownerId lockName).now = w.now ∧
        (w.enter ownerId lockName).started = w.started + 1 ∧
        (w.enter ownerId lockName).acquiredBy =
          Function.update w.acquiredBy lockName (some w.started) ∧
        (w.enter ownerId lockName).runs = Function.update w.runs w.started
          (some { ownerId := ownerId, lockName := lockName, startedAt := w.now }) ∧
        (w.enter ownerId lockName).locks.row lockName =
          some ⟨ownerId, w.now, w.now, w.now + leaseSeconds⟩ ∧
        ∀ name, name ≠ lockName →
          (w.enter ownerId lockName).locks.row name = w.locks.row name) := by
  unfold enter
  rcases @tryJobLock_cases O w.now lockName ownerId w.locks with
    ⟨hskipped, -, hheld⟩ | ⟨hgot, hfree, hrow, hother⟩
  · left
    simp only [hskipped]
    exact ⟨if_neg Bool.false_ne_true, hheld⟩
  · right
    simp only [hgot, if_true]
    exact ⟨hfree, rfl, rfl, rfl, rfl, hrow, hother⟩

variable [DecidableEq O]

/-- What a heartbeat changes belongs to its owner id. -/
theorem changed_heartbeatJobLock {now : ℕ} {lockName name : String} {ownerId : O}
    {t : JobLocks O} (h : (heartbeatJobLock now lockName ownerId t).row name ≠ t.row name) :
    name = lockName ∧ ∃ row, t.row name = some row ∧ row.ownerId = ownerId := by
  rw [row_heartbeatJobLock] at h
  cases hrow : t.row name with
  | none => simp [hrow] at h
  | some row =>
      by_cases hown : name = lockName ∧ row.ownerId = ownerId
      · exact ⟨hown.1, row, rfl, hown.2⟩
      · simp [hrow, hown] at h

/-- What a release removes belongs to its owner id. -/
theorem changed_releaseJobLock {lockName name : String} {ownerId : O} {t : JobLocks O}
    (h : (releaseJobLock lockName ownerId t).row name ≠ t.row name) :
    name = lockName ∧ ∃ row, t.row name = some row ∧ row.ownerId = ownerId := by
  rw [row_releaseJobLock] at h
  cases hrow : t.row name with
  | none => simp [hrow] at h
  | some row =>
      by_cases hown : name = lockName ∧ row.ownerId = ownerId
      · exact ⟨hown.1, row, rfl, hown.2⟩
      · have hkept : (!(decide (name = lockName) && decide (row.ownerId = ownerId))) = true := by
          simpa [-not_and, not_and_or] using hown
        rw [hrow, Option.filter_some, if_pos hkept] at h
        exact absurd rfl h

/-- **Every other step is quiet.** -/
theorem step_quiet {a : LockAction O} (h : w.step a = some w')
    (ha : ∀ ownerId lockName, a ≠ .enter ownerId lockName) : Quiet w w' := by
  cases a with
  | enter ownerId lockName => exact absurd rfl (ha ownerId lockName)
  | tick seconds =>
      obtain rfl := Option.some.inj h
      exact ⟨fun r run' h => ⟨run', h, rfl, rfl, rfl, id⟩, fun name row' h => ⟨row', h, rfl⟩, rfl,
        rfl⟩
  | clear request =>
      obtain rfl := Option.some.inj h
      refine ⟨fun r run' h => ⟨run', h, rfl, rfl, rfl, id⟩, fun name row' h => ?_, rfl, rfl⟩
      rw [row_clearStuck] at h
      exact ⟨row', (Option.filter_eq_some_iff.mp h).1, rfl⟩
  | crash r =>
      obtain ⟨run, hrun, rfl⟩ := Option.map_eq_some_iff.mp h
      exact ⟨runs_setRun hrun fun run' hnext => (nomatch hnext), fun name row' h => ⟨row', h, rfl⟩,
        rfl, rfl⟩
  | sendHeartbeat r =>
      obtain ⟨run, hrun, hsend⟩ := Option.bind_eq_some_iff.mp h
      split at hsend
      · obtain rfl := Option.some.inj hsend
        refine ⟨runs_setRun hrun fun run' hnext => ?_, fun name row' h => ⟨row', h, rfl⟩, rfl, rfl⟩
        obtain rfl := Option.some.inj hnext
        exact ⟨rfl, rfl, rfl, id⟩
      · cases hsend
  | heartbeat r =>
      obtain ⟨run, hrun, hbeat⟩ := Option.bind_eq_some_iff.mp h
      split at hbeat
      · obtain rfl := Option.some.inj hbeat
        refine ⟨runs_setRun hrun fun run' hnext => ?_, fun name row' h => ?_, rfl, rfl⟩
        · split at hnext
          · obtain rfl := Option.some.inj hnext
            exact ⟨rfl, rfl, rfl, id⟩
          · cases hnext
        · have hrow : (heartbeatJobLock w.now run.lockName run.ownerId w.locks).row name =
              some row' := h
          rw [row_heartbeatJobLock] at hrow
          obtain ⟨row, hold, rfl⟩ := Option.map_eq_some_iff.mp hrow
          refine ⟨row, hold, ?_⟩
          split <;> rfl
      · cases hbeat
  | release r =>
      obtain ⟨run, hrun, hrelease⟩ := Option.bind_eq_some_iff.mp h
      split at hrelease
      · obtain rfl := Option.some.inj hrelease
        refine ⟨runs_setRun hrun fun run' hnext => ?_, fun name row' h => ?_, rfl, rfl⟩
        · split at hnext
          · obtain rfl := Option.some.inj hnext
            exact ⟨rfl, rfl, rfl, fun hinside => nomatch hinside⟩
          · cases hnext
        · have hrow : (releaseJobLock run.lockName run.ownerId w.locks).row name = some row' := h
          rw [row_releaseJobLock] at hrow
          exact ⟨row', (Option.filter_eq_some_iff.mp hrow).1, rfl⟩
      · cases hrelease

/-- A step starts a run, or is quiet. -/
theorem step_cases {a : LockAction O} (h : w.step a = some w') :
    (∃ ownerId lockName, a = .enter ownerId lockName ∧ w' = w.enter ownerId lockName) ∨
      Quiet w w' := by
  by_cases henter : ∃ ownerId lockName, a = .enter ownerId lockName
  · obtain ⟨ownerId, lockName, rfl⟩ := henter
    exact Or.inl ⟨ownerId, lockName, rfl, (Option.some.inj h).symm⟩
  · exact Or.inr (step_quiet h fun ownerId lockName ha => henter ⟨ownerId, lockName, ha⟩)

/-- A run that is inside after a release is another one, and was inside before. -/
theorem of_inside_release {r r' : ℕ} {run run' : LockedRun O}
    (hrun' : (w.release r run).runs r' = some run') (hin : run'.inside = true) :
    r' ≠ r ∧ w.runs r' = some run' := by
  by_cases hr : r' = r
  · subst hr
    simp only [release, setRun, Function.update_self] at hrun'
    split at hrun'
    · obtain rfl := Option.some.inj hrun'
      cases hin
    · cases hrun'
  · simp only [release, setRun, Function.update_of_ne hr] at hrun'
    exact ⟨hr, hrun'⟩

end LockWorld

end Steps

end Nebularr
