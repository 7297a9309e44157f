import Nebularr.RunPlan

/-!
# Budget and ledger of one run

A visit posts its commands of ten one after the other and accounts for them
afterwards, all at once: the ledger write and the deduction from the shared
budget stand behind the last command.  When a command raises after one was
accepted, what was accepted is neither in the ledger nor paid for, and the next
instance draws on the same budget again.  And what is accepted a second time,
because its first reply was lost, is paid for once.

Those are the only ways a run can go wrong: unless a visit is torn, what the run
sent is on record, and it fits in the allowance as long as what is accepted again
fits in what the run has left of it.
-/

namespace Nebularr

/-- Counting each part as often as it is wanted: once for the whole, and again for
each further time. -/
theorem sum_mapIdx_times (parts : List (List Int)) (times : ℕ → ℕ)
    (h : ∀ n < parts.length, 0 < times n) :
    (parts.mapIdx fun n part => times n * part.length).sum =
      parts.flatten.length + (parts.mapIdx fun n part => (times n - 1) * part.length).sum := by
  induction parts generalizing times with
  | nil => rfl
  | cons part rest ih =>
      have hfirst := h 0 (Nat.succ_pos _)
      have hrest := ih (fun n => times (n + 1)) fun n hn => h (n + 1) (Nat.succ_lt_succ hn)
      have hpart : times 0 * part.length = part.length + (times 0 - 1) * part.length := by
        conv_lhs => rw [← Nat.sub_add_cancel hfirst]
        rw [Nat.add_mul, Nat.one_mul, Nat.add_comm]
      simp only [List.mapIdx_cons, List.sum_cons, List.flatten_cons, List.length_append]
      omega

section Plan

variable (env : RunEnv) (a : Automation) (ledger : ActionLedger) (arr : Visit → ArrLive)

/-- A visit breaks off although its instance has taken a command on, the first of
them at least. -/
def TornVisit (v : Visit) (left : ℕ) : Prop :=
  itemsToSearch env a ledger arr v left ≠ [] ∧ 0 < (env.command v 0).accepted ∧
    ¬ GoesThrough env v (itemsToSearch env a ledger arr v left)

/-- No visit is torn, each at the budget that those before it leave. -/
def NoTornVisit (left : ℕ) (visits : List Visit) : Prop :=
  ∀ before v after, visits = before ++ v :: after →
    ¬ TornVisit env a ledger arr v (leftAfter env a ledger arr left before)

/-- The items of a visit's commands, once for each time that the instance takes
them on again. -/
def acceptedAgain (v : Visit) (left : ℕ) : ℕ :=
  if GoesThrough env v (itemsToSearch env a ledger arr v left) then
    ((slices commandSearchChunk (itemsToSearch env a ledger arr v left)).mapIdx fun n chunk =>
      ((env.command v n).accepted - 1) * chunk.length).sum
  else 0

/-- Those of all visits. -/
def allAcceptedAgain : ℕ → List Visit → ℕ
  | _, [] => 0
  | left, v :: rest =>
      acceptedAgain env a ledger arr v left +
        allAcceptedAgain (left - paidAt env a ledger arr v left) rest

variable {env a ledger arr} {left : ℕ} {v : Visit}

theorem noTornVisit_cons {rest : List Visit} :
    NoTornVisit env a ledger arr left (v :: rest) ↔
      ¬ TornVisit env a ledger arr v left ∧
        NoTornVisit env a ledger arr (left - paidAt env a ledger arr v left) rest :=
  forall_split_cons_iff

/-- A visit that is not torn and does not go through sends nothing. -/
theorem sent_of_not_torn (h : ¬ TornVisit env a ledger arr v left)
    (hbroken : ¬ GoesThrough env v (itemsToSearch env a ledger arr v left)) :
    (searchItems (env.command v) (itemsToSearch env a ledger arr v left)).state = [] := by
  rw [searchItems_eq_nil_iff]
  by_contra hcon
  obtain ⟨hne, hpos⟩ := not_or.mp hcon
  exact h ⟨hne, Nat.pos_of_ne_zero hpos, hbroken⟩

/-- What is accepted of a visit that is not torn is what it pays for, and what is
accepted again. -/
theorem accepted_of_not_torn (h : ¬ TornVisit env a ledger arr v left) :
    ((searchItems (env.command v) (itemsToSearch env a ledger arr v left)).state.map fun chunk =>
        chunk.times * chunk.items.length).sum =
      paidAt env a ledger arr v left + acceptedAgain env a ledger arr v left := by
  unfold paidAt acceptedAgain
  set items := itemsToSearch env a ledger arr v left with hitems
  by_cases hdone : GoesThrough env v items
  · rw [if_pos hdone, if_pos hdone]
    by_cases hempty : items = []
    · rw [hempty, searchItems_nil, slices_nil]
      rfl
    · have hreturn := (hdone hempty).1
      have htimes : (searchItems (env.command v) items).state.map (fun chunk =>
          chunk.times * chunk.items.length) =
            (slices commandSearchChunk items).mapIdx fun n chunk =>
              (env.command v n).accepted * chunk.length := by
        rw [searchItems_state (searchItems_error_iff.mpr hreturn)]
        exact List.ext_getElem? fun n => by simp [Option.map_map, Function.comp_def]
      rw [htimes]
      have hsum := sum_mapIdx_times (slices commandSearchChunk items)
        (fun n => (env.command v n).accepted) fun n hn => (env.command v n).returned (hreturn n hn)
      rw [flatten_slices] at hsum
      exact hsum
  · rw [if_neg hdone, if_neg hdone, sent_of_not_torn h hdone]
    rfl

end Plan

section Run

variable {env : RunEnv} {a : Automation} {runId : ℕ} {v : Visit} {p : RunProgress}
  {ledger : ActionLedger} {arr : Visit → ArrLive}

/-- The number of items in the commands that instances accepted, each command as
often as it was. -/
def sentItems (p : RunProgress) : ℕ :=
  (p.sent.map fun command => command.times * command.items.length).sum

/-- Every item that was sent has a ledger entry of the run. -/
def AllRecorded (runId : ℕ) (p : RunProgress) : Prop :=
  ∀ command ∈ p.sent, ∀ i ∈ command.items, ∃ row,
    p.ledger.row (command.visit.item i) = some row ∧ row.lastRunId = runId

/-- **One visit and the budget.** -/
theorem sentItems_runInstance (huntouched : Untouched ledger arr v p)
    (h : ¬ TornVisit env a ledger arr v p.remaining) :
    sentItems (runInstance env a runId v p) + (runInstance env a runId v p).remaining =
      sentItems p + p.remaining + acceptedAgain env a ledger arr v p.remaining := by
  have hsum : sentItems (runInstance env a runId v p) = sentItems p +
      ((visitCommands env a v p).map fun chunk => chunk.times * chunk.items.length).sum := by
    rw [sentItems, (runInstance_spec env a runId v p).1, List.map_append, List.sum_append,
      List.map_map]
    rfl
  have hpaid : paidAt env a ledger arr v p.remaining ≤ p.remaining := paidAt_le
  rw [hsum, huntouched.commands, accepted_of_not_torn h, huntouched.remaining runId]
  omega

/-- **One visit and the ledger.** -/
theorem allRecorded_runInstance (huntouched : Untouched ledger arr v p)
    (h : ¬ TornVisit env a ledger arr v p.remaining) (hp : AllRecorded runId p) :
    AllRecorded runId (runInstance env a runId v p) := by
  intro command hmem i hi
  rw [row_runInstance]
  by_cases hnew : command.visit.item i ∈ (visitRecorded env a v p).map v.item
  · exact ⟨_, if_pos hnew, rfl⟩
  · rw [if_neg hnew]
    rw [(runInstance_spec env a runId v p).1, List.mem_append] at hmem
    rcases hmem with hold | hsent
    · exact hp command hold i hi
    · exfalso
      obtain ⟨chunk, hchunk, rfl⟩ := List.mem_map.mp hsent
      rw [huntouched.commands] at hchunk
      by_cases hdone : GoesThrough env v (itemsToSearch env a ledger arr v p.remaining)
      · have hitem : i ∈ itemsToSearch env a ledger arr v p.remaining :=
          mem_slices_iff.mp ⟨chunk.items,
            searchItems_first.subset (List.mem_map_of_mem hchunk), hi⟩
        refine hnew (List.mem_map.mpr ⟨i, ?_, rfl⟩)
        rwa [huntouched.recorded, if_pos hdone]
      · rw [sent_of_not_torn h hdone] at hchunk
        cases hchunk

variable (runId) in
/-- Runs without a torn visit are on record, and send what they pay for and what
is accepted again. -/
theorem runThrough_accounts {visits : List Visit} (hnodup : visits.Nodup) :
    ∀ {p : RunProgress}, (∀ v ∈ visits, Untouched ledger arr v p) →
      NoTornVisit env a ledger arr p.remaining visits → AllRecorded runId p →
      sentItems (runThrough env a runId visits p) + (runThrough env a runId visits p).remaining =
          sentItems p + p.remaining + allAcceptedAgain env a ledger arr p.remaining visits ∧
        AllRecorded runId (runThrough env a runId visits p) := by
  induction visits with
  | nil => exact fun _ _ hp => ⟨rfl, hp⟩
  | cons v rest ih =>
      intro p huntouched htorn hp
      obtain ⟨hnew, hrest⟩ := List.nodup_cons.mp hnodup
      have hfirst := huntouched v List.mem_cons_self
      obtain ⟨hhead, htail⟩ := noTornVisit_cons.mp htorn
      have hone : sentItems (runInstance env a runId v p) +
          (runInstance env a runId v p).remaining =
            sentItems p + p.remaining + acceptedAgain env a ledger arr v p.remaining :=
        sentItems_runInstance hfirst hhead
      have hothers : ∀ u ∈ rest, Untouched ledger arr u (runInstance env a runId v p) :=
        fun u hu => (huntouched u (List.mem_cons_of_mem v hu)).runInstance fun heq =>
          hnew (heq ▸ hu)
      rw [← hfirst.remaining runId] at htail
      obtain ⟨hsent, hrecorded⟩ := ih hrest hothers htail (allRecorded_runInstance hfirst hhead hp)
      rw [runThrough_cons, allAcceptedAgain, ← hfirst.remaining runId]
      exact ⟨by omega, hrecorded⟩

/-- Commands once sent stay sent. -/
theorem sent_subset_runThrough {visits : List Visit} :
    ∀ {p : RunProgress}, p.sent ⊆ (runThrough env a runId visits p).sent := by
  induction visits with
  | nil => exact fun {_} _ h => h
  | cons v rest ih =>
      intro p command hmem
      refine ih ?_
      rw [(runInstance_spec env a runId v p).1]
      exact List.mem_append_left _ hmem

/-- An entry of the run was written at a visit of its instance that went
through. -/
theorem exists_visit_of_row {visits : List Visit} {key : ItemKey} {row : LedgerRow} :
    ∀ {p : RunProgress}, (runThrough env a runId visits p).ledger.row key = some row →
      p.ledger.row key = some row ∨
        ∃ before u after, visits = before ++ u :: after ∧
          VisitCompletes env a u (runThrough env a runId before p) ∧
          ∃ i, key = u.item i := by
  induction visits with
  | nil => exact fun h => Or.inl h
  | cons v rest ih =>
      intro p h
      rw [runThrough_cons] at h
      rcases ih h with hold | ⟨before, u, after, rfl, hcompletes, hkey⟩
      · rw [row_runInstance] at hold
        by_cases hnew : key ∈ (visitRecorded env a v p).map v.item
        · right
          obtain ⟨i, hi, rfl⟩ := List.mem_map.mp hnew
          have hcompletes : VisitCompletes env a v p := by
            by_contra hnot
            rw [visitRecorded, if_neg fun hand => hnot hand.1] at hi
            cases hi
          exact ⟨[], v, rest, rfl, hcompletes, i, rfl⟩
        · rw [if_neg hnew] at hold
          exact Or.inl hold
      · exact Or.inr ⟨v :: before, u, after, rfl, hcompletes, hkey⟩

/-- A rule without a search action sends nothing. -/
theorem sent_of_searchless (hsearch : a.rule.hasSearch = false) {visits : List Visit} :
    ∀ {p : RunProgress}, (runThrough env a runId visits p).sent = p.sent := by
  induction visits with
  | nil => exact fun {_} => rfl
  | cons v rest ih =>
      intro p
      have hnone : visitCommands env a v p = [] := by
        simp [visitCommands, hsearch]
      rw [runThrough_cons, ih, (runInstance_spec env a runId v p).1, hnone]
      simp

end Run

/-- The first occurrence splits a list without repetitions in one way. -/
theorem split_unique_of_nodup {α : Type} {before before' after after' : List α} {x : α}
    (hnodup : (before ++ x :: after).Nodup) (h : before ++ x :: after = before' ++ x :: after') :
    before = before' := by
  have hfresh : ∀ {l r : List α}, (l ++ x :: r).Nodup → x ∉ l ∧ x ∉ r := by
    intro l r hlr
    have hsplit := List.nodup_append.mp hlr
    refine ⟨fun hx => hsplit.2.2 x hx x List.mem_cons_self rfl, ?_⟩
    exact (List.nodup_cons.mp hsplit.2.1).1
  have hright : x ∉ before' ∧ x ∉ after' := by
    rw [h] at hnodup
    exact hfresh hnodup
  exact ((List.append_cons_inj_of_notMem hright.1 hright.2).mp h.symm).1.symm

/-- A visit that is torn leaves items behind that are on no record of the run. -/
theorem noTornVisit_of_recorded {env : RunEnv} {a : Automation} {store : RunLedger}
    {arr : Visit → ArrLive}
    (hrecorded : AllRecorded store.nextRunId (runEnd env a store.nextRunId store.table arr)) :
    NoTornVisit env a store.table arr (searchBudget env a store.table) (runVisits env a) := by
  rintro before v after hsplit ⟨hne, hpos, hbroken⟩
  obtain ⟨hleft, huntouched⟩ := plan_of_split store.nextRunId store.table arr hsplit
  set p := runThrough env a store.nextRunId before (runStart env a store.table arr) with hp
  have hitems : itemsToSearch env a store.table arr v (leftAfter env a store.table arr
      (searchBudget env a store.table) before) =
        itemsToSearch env a store.table arr v p.remaining :=
    congrArg (itemsToSearch env a store.table arr v) hleft.symm
  rw [hitems] at hne hbroken
  have hsent : visitCommands env a v p ≠ [] := by
    rw [huntouched.commands, Ne, searchItems_eq_nil_iff]
    exact fun h => h.elim hne hpos.ne'
  obtain ⟨chunk, hchunk⟩ := List.exists_mem_of_ne_nil _ hsent
  obtain ⟨i, hi⟩ := List.exists_mem_of_ne_nil _
    (ne_nil_of_mem_visitSent _ _ _ _ (List.mem_map_of_mem hchunk))
  have hcommand : chunk.command v ∈ (runEnd env a store.nextRunId store.table arr).sent := by
    rw [runEnd, hsplit, runThrough_append, runThrough_cons]
    refine sent_subset_runThrough ?_
    rw [(runInstance_spec _ _ _ _ _).1]
    exact List.mem_append_right _ (List.mem_map_of_mem hchunk)
  obtain ⟨row, hrow, hrun⟩ := hrecorded _ hcommand i hi
  rcases exists_visit_of_row hrow with hold | ⟨before', u, after', hsplit', hdone, j, hkey⟩
  · have hused := store.usedIds _ row hold
    omega
  · obtain ⟨rfl, -⟩ := Visit.item_inj hkey
    have hnodup := nodup_runVisits env a
    rw [hsplit] at hnodup
    obtain rfl := split_unique_of_nodup hnodup (hsplit.symm.trans hsplit')
    exact hbroken (huntouched.completes_iff.mp hdone).2

/-- **Budget and ledger under partial failure.**  A run keeps to its allowance
and has every item it sent on record exactly when none of its visits is torn, and
what instances accept again fits in what the visits leave of the allowance. -/
theorem run_accounts_iff (env : RunEnv) (a : Automation) (store : RunLedger)
    (arr : Visit → ArrLive) :
    let p := runEnd env a store.nextRunId store.table arr
    let budget := searchBudget env a store.table
    (sentItems p ≤ min a.budgetPerRun
        (env.maxSearchesPerDay - countRecentSearches (env.now .allowance) store.table) ∧
      AllRecorded store.nextRunId p) ↔
    NoTornVisit env a store.table arr budget (runVisits env a) ∧
      allAcceptedAgain env a store.table arr budget (runVisits env a) ≤
        budgetLeft env a store.table arr (runVisits env a) := by
  intro p budget
  have hnodup : (runVisits env a ++ []).Nodup := by
    rw [List.append_nil]
    exact nodup_runVisits env a
  have hleft : p.remaining = budgetLeft env a store.table arr (runVisits env a) :=
    (plan_of_append _ _ _ hnodup).1
  have haccounts : NoTornVisit env a store.table arr budget (runVisits env a) →
      sentItems p + p.remaining =
          budget + allAcceptedAgain env a store.table arr budget (runVisits env a) ∧
        AllRecorded store.nextRunId p := by
    intro htorn
    have hrun := runThrough_accounts store.nextRunId (nodup_runVisits env a)
      (p := runStart env a store.table arr) (fun v _ => Untouched.start) htorn
      (fun _ hmem => nomatch hmem)
    have hzero : sentItems (runStart env a store.table arr) = 0 := rfl
    rw [hzero, Nat.zero_add] at hrun
    exact hrun
  by_cases hsearch : a.rule.hasSearch = true
  · have hbudget : budget = min a.budgetPerRun
        (env.maxSearchesPerDay - countRecentSearches (env.now .allowance) store.table) :=
      if_pos hsearch
    rw [← hbudget, ← hleft]
    constructor
    · intro h
      have htorn := noTornVisit_of_recorded h.2
      have hsum := (haccounts htorn).1
      exact ⟨htorn, by omega⟩
    · intro h
      obtain ⟨hsum, hrecorded⟩ := haccounts h.1
      exact ⟨by omega, hrecorded⟩
  · have hnone : p.sent = [] := sent_of_searchless (Bool.eq_false_of_not_eq_true hsearch)
    have hsent : sentItems p = 0 := by
      rw [sentItems, hnone]
      rfl
    rw [hsent, ← hleft]
    constructor
    · intro h
      have htorn := noTornVisit_of_recorded h.2
      have hsum := (haccounts htorn).1
      exact ⟨htorn, by omega⟩
    · intro h
      exact ⟨Nat.zero_le _, (haccounts h.1).2⟩

/-- A live missing-content hunter with a budget of eleven. -/
def hunterOfEleven : Automation where
  id := 1
  rule := missingHunter
  dryRun := false
  budgetPerRun := 11
  cooldownDays := 7
  dubStatusSeen := fun _ => none
  budgetBounds := by decide
  cooldownBounds := defaultCooldown_bounds

/-- Eleven missing movies on an instance that refuses the second command. -/
def refusesSecond : RunEnv :=
  { quietRadarr (missingMovies "default" [1, 2, 3, 4, 5, 6, 7, 8, 9, 10, 11]) with
    attempt := fun _ n _ => if n = 1 then .refused else .answered }

/-- Ten movies are searched and the ledger knows of none. -/
theorem refused_command_unrecords :
    ¬ ∀ (env : RunEnv) (a : Automation) (store : RunLedger) (arr : Visit → ArrLive),
      let p := runEnd env a store.nextRunId store.table arr
      sentItems p ≤ min a.budgetPerRun
          (env.maxSearchesPerDay - countRecentSearches (env.now .allowance) store.table) ∧
        AllRecorded store.nextRunId p := by
  intro h
  obtain ⟨-, hrecorded⟩ := h refusesSecond hunterOfEleven RunLedger.empty fun _ => ArrLive.empty
  have hsent : ⟨⟨.movie, "default"⟩, [1, 2, 3, 4, 5, 6, 7, 8, 9, 10], 1⟩ ∈
      (runEnd refusesSecond hunterOfEleven 1 RunLedger.empty.table fun _ =>
        ArrLive.empty).sent := by
    decide +kernel
  obtain ⟨row, hrow, -⟩ := hrecorded _ hsent 1 (by decide)
  have hnone : (runEnd refusesSecond hunterOfEleven 1 RunLedger.empty.table
      fun _ => ArrLive.empty).ledger.row ⟨"default", .movie, 1⟩ = none := by
    decide +kernel
  exact absurd (hnone.symm.trans hrow) (by simp)

end Nebularr
