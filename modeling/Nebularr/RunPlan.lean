import Nebularr.AutomationRun

/-!
# What a run will do

The visits of a run share the budget and nothing else: what one of them writes to
the ledger or edits is about its own instance.  So what a visit selects, and
whether it goes through, can be read off what the run starts from and off the
budget that the visits before it leave; and that budget can be computed visit by
visit (`budgetLeft`).
-/

namespace Nebularr

/-! ## Commands for a list of items -/

section Items

variable (env : RunEnv) (v : Visit)

/-- Each command for these items returns, and so does the ledger write after them. -/
def GoesThrough (items : List Int) : Prop :=
  items ≠ [] → (∀ n < (slices commandSearchChunk items).length, (env.command v n).error = none) ∧
    env.fault (.record v) = none

instance (items : List Int) : Decidable (GoesThrough env v items) := by
  unfold GoesThrough; infer_instance

/-- A visit goes through if its commands are answered and its ledger is written,
as far as there is something to search. -/
theorem goesThrough_iff {items : List Int} :
    GoesThrough env v items ↔
      (items ≠ [] → (searchItems (env.command v) items).error = none ∧
        env.fault (.record v) = none) := by
  rw [GoesThrough, searchItems_error_iff]

end Items

/-! ## The plan -/

section Plan

variable (env : RunEnv) (a : Automation) (ledger : ActionLedger) (arr : Visit → ArrLive)

/-- The rows a visit may select. -/
def eligibleRows (v : Visit) : List CandidateRow :=
  (compileCandidates a.rule.toRuleParams v.entity a.rule.primarySense (env.catalog v) ledger
    ⟨v.instanceName, env.now (.select v), a.cooldownDays,
      (arr v).tagIds (a.rule.scope.tagsAny.map env.labelKey)⟩).ordered

/-- Those within its limit, when so much of the budget is left. -/
def rowsWithin (v : Visit) (left : ℕ) : List CandidateRow :=
  (eligibleRows env a ledger arr v).take (if a.rule.hasSearch then left else searchlessLimit)

/-- The items it searches. -/
def itemsToSearch (v : Visit) (left : ℕ) : List Int :=
  if VisitSelects env a v ∧ a.rule.hasSearch = true then
    (pruned a (rowsWithin env a ledger arr v left)).map CandidateRow.sourceId
  else []

/-- What it takes off the budget. -/
def paidAt (v : Visit) (left : ℕ) : ℕ :=
  if GoesThrough env v (itemsToSearch env a ledger arr v left) then
    (itemsToSearch env a ledger arr v left).length
  else 0

/-- What some visits leave of a budget. -/
def leftAfter (left : ℕ) (visits : List Visit) : ℕ :=
  visits.foldl (fun left v => left - paidAt env a ledger arr v left) left

/-- What the first visits of a run leave of its budget. -/
def budgetLeft (visits : List Visit) : ℕ :=
  leftAfter env a ledger arr (searchBudget env a ledger) visits

end Plan

/-- A visit searches no more than is left of the budget. -/
theorem length_itemsToSearch_le {env : RunEnv} {a : Automation} {ledger : ActionLedger}
    {arr : Visit → ArrLive} {v : Visit} {left : ℕ} :
    (itemsToSearch env a ledger arr v left).length ≤ left := by
  unfold itemsToSearch
  split
  next hsearches =>
      rw [List.length_map, rowsWithin, if_pos hsearches.2]
      exact length_pruned_le.trans (List.length_take_le _ _)
  next => exact Nat.zero_le left

/-- Nor does it pay more. -/
theorem paidAt_le {env : RunEnv} {a : Automation} {ledger : ActionLedger} {arr : Visit → ArrLive}
    {v : Visit} {left : ℕ} : paidAt env a ledger arr v left ≤ left := by
  unfold paidAt
  split
  · exact length_itemsToSearch_le
  · exact Nat.zero_le left

/-! ## A run goes by its plan -/

section Run

variable {env : RunEnv} {a : Automation} {runId : ℕ} {u v : Visit} {p : RunProgress}

/-- The visits before, then those after. -/
theorem runThrough_append {before after : List Visit} :
    runThrough env a runId (before ++ after) p =
      runThrough env a runId after (runThrough env a runId before p) := List.foldl_append

/-- A visit writes the ledger of what it records. -/
theorem row_runInstance {key : ItemKey} :
    (runInstance env a runId v p).ledger.row key =
      if key ∈ (visitRecorded env a v p).map v.item then
        some ⟨env.now (.record v), a.id, runId⟩
      else p.ledger.row key := by
  rw [(runInstance_spec env a runId v p).2.1, row_writeLedger]

variable (env a runId v p) in
/-- Searching edits nothing in the Arr. -/
theorem searchPhase_edited (items : List Int) :
    (searchPhase env a runId v items p).1.edited = p.edited := by
  unfold searchPhase
  split
  · dsimp only
    split <;> rfl
  · rfl

/-- A visit edits its own instance only. -/
theorem edited_runInstance_of_ne (h : v ≠ u) :
    (runInstance env a runId u p).edited v = p.edited v := by
  unfold runInstance
  split
  · rfl
  · dsimp only
    have hphase :=
      searchPhase_edited env a runId u p
        ((pruned a (selectedRows env a u p)).map CandidateRow.sourceId)
    split
    next searched e hsearched =>
        rw [hsearched] at hphase
        exact congrFun hphase v
    next => exact Function.update_of_ne h _ _

/-- Nothing has been done about an instance so far. -/
structure Untouched (ledger : ActionLedger) (arr : Visit → ArrLive) (v : Visit) (p : RunProgress) :
    Prop where
  rows : ∀ i, p.ledger.row (v.item i) = ledger.row (v.item i)
  edited : p.edited v = ⟨arr v, []⟩

variable {ledger : ActionLedger} {arr : Visit → ArrLive}

/-- When a run starts no instance has been touched. -/
theorem Untouched.start : Untouched ledger arr v (runStart env a ledger arr) := ⟨fun _ => rfl, rfl⟩

/-- A visit leaves the other instances alone. -/
theorem Untouched.runInstance (h : Untouched ledger arr v p) (hne : v ≠ u) :
    Untouched ledger arr v (runInstance env a runId u p) := by
  refine ⟨fun i => ?_, (edited_runInstance_of_ne hne).trans h.edited⟩
  rw [row_runInstance, if_neg, h.rows]
  intro hwritten
  obtain ⟨j, -, hkey⟩ := List.mem_map.mp hwritten
  exact hne (Visit.item_inj hkey).1.symm

/-- A query reads of the ledger what it has on the items of its instance. -/
theorem compileCandidates_congr {params : RuleParams} {sense : Sense} {c : Catalog}
    {ledger' : ActionLedger} {binds : QueryBinds} (hname : binds.instanceName = v.instanceName)
    (h : ∀ i, ledger'.row (v.item i) = ledger.row (v.item i)) :
    compileCandidates params v.entity sense c ledger' binds =
      compileCandidates params v.entity sense c ledger binds := by
  have htime : ∀ row, ledgerTime params v.entity sense ledger' binds.instanceName row =
      ledgerTime params v.entity sense ledger binds.instanceName row := by
    intro row
    have hrow := h row.sourceId
    unfold Visit.item at hrow
    rw [ledgerTime, ledgerTime, hname, hrow]
  unfold compileCandidates
  simp only [htime]

/-- **A visit that finds its instance untouched goes by the plan.** -/
theorem Untouched.ordered (h : Untouched ledger arr v p) :
    (visitQuery env a v p).ordered = eligibleRows env a ledger arr v := by
  have hbinds : visitBinds env a v p = ⟨v.instanceName, env.now (.select v), a.cooldownDays,
      (arr v).tagIds (a.rule.scope.tagsAny.map env.labelKey)⟩ := by
    rw [visitBinds, h.edited]
  rw [visitQuery, hbinds, eligibleRows, compileCandidates_congr rfl h.rows]

/-- On an untouched instance the rows selected are those of the plan. -/
theorem Untouched.selectedRows (h : Untouched ledger arr v p) :
    selectedRows env a v p = rowsWithin env a ledger arr v p.remaining := by
  rw [Nebularr.selectedRows, CompiledQuery.select, h.ordered]
  rfl

/-- On an untouched instance the items searched are those of the plan. -/
theorem Untouched.itemsToSearch (h : Untouched ledger arr v p) :
    itemsToSearch env a ledger arr v p.remaining =
      if VisitSelects env a v ∧ a.rule.hasSearch = true then visitItems env a v p else [] := by
  rw [Nebularr.itemsToSearch, visitItems, h.selectedRows]

/-- On an untouched instance a visit goes through as planned. -/
theorem Untouched.completes_iff (h : Untouched ledger arr v p) :
    VisitCompletes env a v p ↔ VisitSelects env a v ∧
      GoesThrough env v (Nebularr.itemsToSearch env a ledger arr v p.remaining) := by
  unfold VisitCompletes
  refine and_congr_right fun hselects => ?_
  rw [h.itemsToSearch, goesThrough_iff]
  by_cases hsearch : a.rule.hasSearch = true
  · rw [if_pos ⟨hselects, hsearch⟩]
    exact ⟨fun hdone => hdone hsearch, fun hdone _ => hdone⟩
  · rw [if_neg fun hboth => hsearch hboth.2]
    exact ⟨fun _ hne => absurd rfl hne, fun _ hs => absurd hs hsearch⟩

/-- On an untouched instance the commands are those of the plan. -/
theorem Untouched.commands (h : Untouched ledger arr v p) :
    visitCommands env a v p =
      (searchItems (env.command v)
        (Nebularr.itemsToSearch env a ledger arr v p.remaining)).state := by
  rw [visitCommands, h.itemsToSearch]
  split
  · rfl
  · rw [searchItems_nil]

/-- On an untouched instance a visit records what is searched, if it goes through. -/
theorem Untouched.recorded (h : Untouched ledger arr v p) :
    visitRecorded env a v p =
      if GoesThrough env v (Nebularr.itemsToSearch env a ledger arr v p.remaining) then
        Nebularr.itemsToSearch env a ledger arr v p.remaining
      else [] := by
  rw [visitRecorded]
  by_cases hsearches : VisitSelects env a v ∧ a.rule.hasSearch = true
  · have hitems : Nebularr.itemsToSearch env a ledger arr v p.remaining = visitItems env a v p := by
      rw [h.itemsToSearch, if_pos hsearches]
    by_cases hdone : GoesThrough env v (Nebularr.itemsToSearch env a ledger arr v p.remaining)
    · rw [if_pos hdone, if_pos ⟨h.completes_iff.mpr ⟨hsearches.1, hdone⟩, hsearches.2⟩, hitems]
    · rw [if_neg hdone, if_neg fun hboth => hdone (h.completes_iff.mp hboth.1).2]
  · have hitems : Nebularr.itemsToSearch env a ledger arr v p.remaining = [] := by
      rw [h.itemsToSearch, if_neg hsearches]
    rw [if_neg fun hboth => hsearches ⟨hboth.1.1, hboth.2⟩, hitems, ite_self]

/-- On an untouched instance the budget falls by what the plan pays. -/
theorem Untouched.remaining (h : Untouched ledger arr v p) (runId : ℕ) :
    (Nebularr.runInstance env a runId v p).remaining =
      p.remaining - paidAt env a ledger arr v p.remaining := by
  rw [(runInstance_spec _ _ _ _ _).2.2.1, h.recorded, paidAt, apply_ite List.length]
  rfl

variable (runId ledger arr) in
/-- What the visits before it leave to a visit. -/
theorem plan_of_append {before rest : List Visit} (hnodup : (before ++ rest).Nodup) :
    (runThrough env a runId before (runStart env a ledger arr)).remaining =
        budgetLeft env a ledger arr before ∧
      ∀ v ∈ rest, Untouched ledger arr v
        (runThrough env a runId before (runStart env a ledger arr)) := by
  induction before using List.reverseRecOn generalizing rest with
  | nil => exact ⟨rfl, fun v _ => Untouched.start⟩
  | append_singleton before u ih =>
      rw [List.append_assoc, List.singleton_append] at hnodup
      obtain ⟨hremaining, huntouched⟩ := ih hnodup
      have hfirst := huntouched u List.mem_cons_self
      have hrest := (List.nodup_append.mp hnodup).2.1
      have hone : runThrough env a runId (before ++ [u]) (runStart env a ledger arr) =
          runInstance env a runId u
            (runThrough env a runId before (runStart env a ledger arr)) := by
        rw [runThrough_append]
        rfl
      rw [hone]
      constructor
      · rw [hfirst.remaining runId, hremaining, budgetLeft, budgetLeft, leftAfter, leftAfter,
          List.foldl_append]
        rfl
      · intro v hv
        have hne : v ≠ u := by
          rintro rfl
          exact (List.nodup_cons.mp hrest).1 hv
        exact (huntouched v (List.mem_cons_of_mem u hv)).runInstance hne

variable (runId ledger arr) in
/-- **A run goes by its plan.** -/
theorem plan_of_split {before after : List Visit}
    (hsplit : runVisits env a = before ++ v :: after) :
    (runThrough env a runId before (runStart env a ledger arr)).remaining =
        budgetLeft env a ledger arr before ∧
      Untouched ledger arr v (runThrough env a runId before (runStart env a ledger arr)) := by
  have hnodup := nodup_runVisits env a
  rw [hsplit] at hnodup
  obtain ⟨hremaining, huntouched⟩ := plan_of_append runId ledger arr hnodup
  exact ⟨hremaining, huntouched v List.mem_cons_self⟩

end Run

end Nebularr
