import Nebularr.ArrEditor
import Nebularr.SearchCommands

/-!
# A run of an automation

A run visits the enabled instances of its entities in turn.  At each it
selects the rule's rows, searches the items of a searching rule in commands of
ten, records them in the ledger, and then carries out the tag and monitor
actions.  All visits draw on one budget: the rule's own, or what the daily cap
left when the run began.

Everything outside the process is a parameter: what each command came to,
where a transaction or a request raises, and what time each transaction reads.
A visit that raises is caught there and then, so what a visit leaves behind is
decided by how far it came: which commands reached the instance (`visitSent`)
and whether its search phase went through (`VisitCompletes`).
-/

namespace Nebularr

/-- A row of `app.automation` whose params validated. -/
structure Automation where
  id : Int
  rule : AcceptedRule
  dryRun : Bool
  budgetPerRun : ℕ
  cooldownDays : ℕ
  dubStatusSeen : Int → Option DubStatus
  budgetBounds : 1 ≤ budgetPerRun ∧ budgetPerRun ≤ 100
  cooldownBounds : 1 ≤ cooldownDays ∧ cooldownDays ≤ 90

/-- The budget of an automation that is created without one passes the check. -/
theorem defaultBudget_bounds : 1 ≤ 10 ∧ 10 ≤ 100 := by decide

/-- So does its cooldown. -/
theorem defaultCooldown_bounds : 1 ≤ 7 ∧ 7 ≤ 90 := by decide

/-- One stop of a run: movies of a Radarr instance, episodes of a Sonarr
instance. -/
structure Visit where
  entity : Entity
  instanceName : String
deriving DecidableEq, Repr

/-- The ledger's name for an item seen at a visit. -/
def Visit.item (v : Visit) (sourceId : Int) : ItemKey := ⟨v.instanceName, v.entity, sourceId⟩

theorem Visit.item_inj {v v' : Visit} {i i' : Int} (h : v.item i = v'.item i') :
    v = v' ∧ i = i' := by
  cases v
  cases v'
  simp_all [Visit.item]

/-- The places where a run reads the clock or may raise, besides its search
commands and editor calls. -/
inductive RunPoint
  | allowance
  | integrations (entity : Entity)
  | select (visit : Visit)
  | record (visit : Visit)
  | tagListing (visit : Visit)
  | monitoredListing (visit : Visit)
  | state
deriving DecidableEq, Repr

/-- What a run meets: the configuration, the clock, the faults, and the
answers of the instances. -/
structure RunEnv where
  maxSearchesPerDay : ℕ
  labelKey : String → String
  integrations : Entity → List String
  catalog : Visit → Catalog
  now : RunPoint → Int
  fault : RunPoint → Option String
  settings : ArrSettings
  /-- A visit's commands count from 0, and the attempts at one from 1. -/
  attempt : Visit → ℕ → ℕ → CommandAttempt
  tagTear : Visit → Tear
  monitoredTear : Visit → Tear
  /-- `unique (source, name)`. -/
  namesUnique : ∀ entity, (integrations entity).Nodup

/-- What the `n`-th command of a visit comes to. -/
def RunEnv.command (env : RunEnv) (v : Visit) (n : ℕ) : CommandOutcome :=
  commandOutcome (commandRequest env.settings v.entity) (env.attempt v n)

/-- A search command that its instance has taken on, and how often. -/
structure SentCommand where
  visit : Visit
  items : List Int
  times : ℕ
deriving DecidableEq, Repr

/-- A command of a visit. -/
def AcceptedChunk.command (v : Visit) (chunk : AcceptedChunk) : SentCommand :=
  ⟨v, chunk.items, chunk.times⟩

/-- The ledger with the run ids given out so far. -/
structure RunLedger where
  table : ActionLedger
  nextRunId : ℕ
  usedIds : ∀ key row, table.row key = some row → row.lastRunId < nextRunId

/-- What a run has done so far: the ledger, `budget_state`, the
`dub_observations` in the order in which they were merged, the commands that
reached an instance, and the instances with the editor calls made on each. -/
structure RunProgress where
  ledger : ActionLedger
  remaining : ℕ
  observed : List DubRow
  sent : List SentCommand
  edited : Visit → Edited

/-! ## Selection -/

section Visits

variable (env : RunEnv) (a : Automation) (runId : ℕ) (v : Visit) (p : RunProgress)

/-- The runtime binds of a visit. -/
def visitBinds : QueryBinds where
  instanceName := v.instanceName
  now := env.now (.select v)
  cooldownDays := a.cooldownDays
  tagIds := (p.edited v).arr.tagIds (a.rule.scope.tagsAny.map env.labelKey)

/-- The query of the set the rule is about. -/
def visitQuery : CompiledQuery :=
  compileCandidates a.rule.toRuleParams v.entity a.rule.primarySense (env.catalog v) p.ledger
    (visitBinds env a v p)

/-- The rows a visit selects: bounded by the budget left when the rule
searches. -/
def selectedRows : List CandidateRow :=
  (visitQuery env a v p).select (if a.rule.hasSearch then p.remaining else searchlessLimit)

end Visits

/-- `seen.get(mal_id) in (None, "none") and now_status in ("partial", "dubbed")`. -/
def isFresh (seen : Int → Option DubStatus) (row : CandidateRow) : Bool :=
  row.dub.any fun dub =>
    (seen dub.malId = none || seen dub.malId = some .noDub) && dub.dubStatus ≠ .noDub

/-- The rows that stay candidates: with `new_dub_only`, the fresh ones. -/
def pruned (a : Automation) (rows : List CandidateRow) : List CandidateRow :=
  if a.rule.options.newDubOnly then rows.filter (isFresh a.dubStatusSeen) else rows

/-- `local_dub_observations`. -/
def observations (a : Automation) (rows : List CandidateRow) : List DubRow :=
  if a.rule.options.newDubOnly then rows.filterMap CandidateRow.dub else []

/-- `{**existing_state.get("dub_status_seen", {}), **dub_observations}`: the
last observation of a `mal_id` wins. -/
def mergedSeen (seen : Int → Option DubStatus) (observed : List DubRow) (malId : Int) :
    Option DubStatus :=
  ((observed.reverse.find? fun dub => dub.malId = malId).map DubRow.dubStatus).or (seen malId)

/-- The ids a searching rule selects under a limit. -/
def searchSelection (a : Automation) (v : Visit) (c : Catalog) (ledger : ActionLedger)
    (binds : QueryBinds) (limit : ℕ) : List Int :=
  (pruned a ((compileCandidates a.rule.toRuleParams v.entity a.rule.primarySense c ledger
    binds).select limit)).map CandidateRow.sourceId

theorem length_pruned_le {a : Automation} {rows : List CandidateRow} :
    (pruned a rows).length ≤ rows.length := by
  unfold pruned
  split
  · exact List.length_filter_le _ _
  · exact Nat.le_refl _

theorem length_searchSelection_le {a : Automation} {v : Visit} {c : Catalog} {ledger : ActionLedger}
    {binds : QueryBinds} {limit : ℕ} :
    (searchSelection a v c ledger binds limit).length ≤ limit := by
  rw [searchSelection, List.length_map]
  exact length_pruned_le.trans CompiledQuery.length_select_le

/-- **What a rule selects is past its cooldown.** -/
theorem cooled_of_mem_searchSelection {a : Automation} {v : Visit} {c : Catalog}
    {ledger : ActionLedger} {binds : QueryBinds} {limit : ℕ} (hsearch : a.rule.hasSearch = true)
    (hname : binds.instanceName = v.instanceName) {i : Int}
    (h : i ∈ searchSelection a v c ledger binds limit) {row : LedgerRow}
    (hrow : ledger.row (v.item i) = some row) :
    row.lastFiredAt < binds.now - binds.cooldownDays * daySeconds := by
  obtain ⟨r, hr, rfl⟩ := List.mem_map.mp h
  have hselected : r ∈ (compileCandidates a.rule.toRuleParams v.entity a.rule.primarySense c ledger
      binds).select limit := by
    unfold pruned at hr
    split at hr
    · exact (List.mem_filter.mp hr).1
    · exact hr
  have hsense := a.rule.toRuleParams.primarySense_of_hasSearch hsearch
  have hpast := (mem_ordered_iff.mp (CompiledQuery.mem_of_mem_select hselected)).2 hsearch hsense
  have htime : ledgerTime a.rule.toRuleParams v.entity a.rule.primarySense ledger
      binds.instanceName r = some row.lastFiredAt := by
    have hkey : v.item r.sourceId = ⟨v.instanceName, v.entity, r.sourceId⟩ := rfl
    rw [hkey] at hrow
    rw [ledgerTime, if_pos ⟨hsearch, by simp [hsense]⟩, hname, hrow]
    rfl
  rw [htime, pastCooldown, Truth.holds_or, Truth.holds_onColumn] at hpast
  rcases hpast with hnone | ⟨fired, hfired, hlt⟩
  · simp at hnone
  · obtain rfl := Option.some.inj hfired
    exact of_decide_eq_true hlt

section Run

variable (env : RunEnv) (a : Automation) (runId : ℕ)

/-- The search commands of a visit and the ledger write after them. -/
def searchPhase (v : Visit) (items : List Int) (p : RunProgress) : RunProgress × Option String :=
  if a.rule.hasSearch = true ∧ items ≠ [] then
    let exit := searchItems (env.command v) items
    let searched := { p with sent := p.sent ++ exit.state.map (AcceptedChunk.command v) }
    match exit.error.map SyncError.text, env.fault (.record v) with
    | some e, _ => (searched, some e)
    | none, some e => (searched, some e)
    | none, none =>
        ({ searched with
            ledger := writeLedger (items.map v.item) ⟨env.now (.record v), a.id, runId⟩ p.ledger
            remaining := p.remaining - items.length }, none)
  else
    (p, none)

/-- The row sets of the tag and monitor actions: never from the budgeted
selection, and without the ledger. -/
def rowSets (v : Visit) (p : RunProgress) : RowSets := fun sense =>
  (compileCandidates a.rule.withoutSearch v.entity sense (env.catalog v) p.ledger
    (visitBinds env a v p)).select searchlessLimit

/-- The tag actions, then the monitor actions if those went through. -/
def actionPhase (v : Visit) (rows : RowSets) (s : Edited) : Edited :=
  let listed (point : RunPoint) (actions : ℕ) : Bool := actions = 0 || (env.fault point).isNone
  if listed (.tagListing v) (tagActions a.rule.toRuleParams).length then
    let tagged := applyTagActions env.labelKey v.entity rows (env.tagTear v) a.rule.toRuleParams s
    if tagged.error = none ∧
        listed (.monitoredListing v) (monitoredActions a.rule.toRuleParams).length then
      (applyMonitoredActions v.entity rows (env.monitoredTear v) a.rule.toRuleParams
        tagged.state).state
    else tagged.state
  else s

/-- `_run_instance`.  A dry run ends after its selection. -/
def runInstance (v : Visit) (p : RunProgress) : RunProgress :=
  if (env.fault (.select v)).isSome ∨ a.dryRun = true then p
  else
    let rows := selectedRows env a v p
    let items := (pruned a rows).map CandidateRow.sourceId
    match searchPhase env a runId v items p with
    | (searched, some _) => searched
    | (searched, none) =>
        { searched with
          observed := p.observed ++ observations a rows
          edited := Function.update p.edited v
            (actionPhase env a v (rowSets env a v p) (p.edited v)) }

/-- The instances a run gets to: none without its allowance, and an
integration query that raises ends it. -/
def runVisits : List Visit :=
  if a.rule.hasSearch = true ∧ (env.fault .allowance).isSome then []
  else
    (a.rule.targets.takeWhile fun entity => (env.fault (.integrations entity)).isNone).flatMap
      fun entity =>
        ((env.integrations entity).filter fun name =>
          a.rule.scope.instances = [] ∨ name ∈ a.rule.scope.instances).map (Visit.mk entity)

/-- `min(search_budget, cap_left)`. -/
def searchBudget (ledger : ActionLedger) : ℕ :=
  if a.rule.hasSearch then
    min a.budgetPerRun
      (env.maxSearchesPerDay - countRecentSearches (env.now .allowance) ledger)
  else a.budgetPerRun

/-- A run before its first visit. -/
def runStart (ledger : ActionLedger) (arr : Visit → ArrLive) : RunProgress :=
  ⟨ledger, searchBudget env a ledger, [], [], fun v => ⟨arr v, []⟩⟩

/-- The visits, one after the other. -/
def runThrough (visits : List Visit) (p : RunProgress) : RunProgress :=
  visits.foldl (fun p v => runInstance env a runId v p) p

/-- A run after its last visit. -/
def runEnd (ledger : ActionLedger) (arr : Visit → ArrLive) : RunProgress :=
  runThrough env a runId (runVisits env a) (runStart env a ledger arr)

/-- The run body reached the merge of its observations, and stored it. -/
def runMerges : Bool :=
  a.rule.options.newDubOnly && !a.dryRun &&
    !(a.rule.hasSearch && (env.fault .allowance).isSome) &&
    (a.rule.targets.all fun entity => (env.fault (.integrations entity)).isNone) &&
    (env.fault .state).isNone

/-- `dub_status_seen` after the run. -/
def runSeen (p : RunProgress) : Int → Option DubStatus :=
  if runMerges env a then mergedSeen a.dubStatusSeen p.observed else a.dubStatusSeen

/-! ## What a visit leaves -/

variable (v : Visit) (p : RunProgress)

/-- The ids a visit searches. -/
def visitItems : List Int := (pruned a (selectedRows env a v p)).map CandidateRow.sourceId

/-- A live visit whose selection did not raise. -/
def VisitSelects : Prop := env.fault (.select v) = none ∧ a.dryRun = false

instance : Decidable (VisitSelects env a v) := by unfold VisitSelects; infer_instance

/-- The commands of a visit that its instance has taken on. -/
def visitCommands : List AcceptedChunk :=
  if VisitSelects env a v ∧ a.rule.hasSearch = true then
    (searchItems (env.command v) (visitItems env a v p)).state
  else []

/-- The items of each. -/
def visitSent : List (List Int) := (visitCommands env a v p).map AcceptedChunk.items

/-- The search phase of a visit went through: every command was answered, and
the ledger write committed. -/
def VisitCompletes : Prop :=
  VisitSelects env a v ∧
    (a.rule.hasSearch = true → visitItems env a v p ≠ [] →
      (searchItems (env.command v) (visitItems env a v p)).error = none ∧
        env.fault (.record v) = none)

instance : Decidable (VisitCompletes env a v p) := by unfold VisitCompletes; infer_instance

/-- The items a visit has recorded. -/
def visitRecorded : List Int :=
  if VisitCompletes env a v p ∧ a.rule.hasSearch = true then visitItems env a v p else []

/-- **What a visit does**, field by field. -/
theorem runInstance_spec :
    (runInstance env a runId v p).sent =
        p.sent ++ (visitCommands env a v p).map (AcceptedChunk.command v) ∧
      (runInstance env a runId v p).ledger =
        writeLedger ((visitRecorded env a v p).map v.item) ⟨env.now (.record v), a.id, runId⟩
          p.ledger ∧
      (runInstance env a runId v p).remaining =
        p.remaining - (visitRecorded env a v p).length ∧
      (runInstance env a runId v p).observed =
        p.observed ++ (if VisitCompletes env a v p then
          observations a (selectedRows env a v p) else []) := by
  by_cases hlive : VisitSelects env a v
  · obtain ⟨hselect, hdry⟩ := hlive
    have hvisit : VisitSelects env a v := ⟨hselect, hdry⟩
    have hitems : (pruned a (selectedRows env a v p)).map CandidateRow.sourceId =
        visitItems env a v p := rfl
    by_cases hsearch : a.rule.hasSearch = true ∧ visitItems env a v p ≠ []
    · obtain ⟨hrule, hne⟩ := hsearch
      cases herror : (searchItems (env.command v) (visitItems env a v p)).error with
      | some e =>
          have hnot : ¬ VisitCompletes env a v p := fun h => by
            simpa [herror] using (h.2 hrule hne).1
          simp [runInstance, searchPhase, hselect, hdry, hitems, hrule, hne, herror, visitCommands,
            hvisit, visitRecorded, hnot, writeLedger_nil]
      | none =>
          cases hrecord : env.fault (.record v) with
          | some e =>
              have hnot : ¬ VisitCompletes env a v p := fun h => by
                simpa [hrecord] using (h.2 hrule hne).2
              simp [runInstance, searchPhase, hselect, hdry, hitems, hrule, hne, herror, hrecord,
                visitCommands, hvisit, visitRecorded, hnot, writeLedger_nil]
          | none =>
              have hdone : VisitCompletes env a v p := ⟨hvisit, fun _ _ => ⟨herror, hrecord⟩⟩
              simp [runInstance, searchPhase, hselect, hdry, hitems, hrule, hne, herror, hrecord,
                visitCommands, hvisit, visitRecorded, hdone]
    · have hdone : VisitCompletes env a v p :=
        ⟨hvisit, fun hrule hne => absurd ⟨hrule, hne⟩ hsearch⟩
      have hnone : ¬ (a.rule.hasSearch = true) ∨ visitItems env a v p = [] := by
        by_cases hrule : a.rule.hasSearch = true
        · exact Or.inr (by_contra fun hne => hsearch ⟨hrule, hne⟩)
        · exact Or.inl hrule
      rcases hnone with hrule | hempty
      · simp [runInstance, searchPhase, hselect, hdry, hrule, visitCommands, visitRecorded, hdone,
          writeLedger_nil]
      · simp [runInstance, searchPhase, hselect, hdry, hitems, hempty, visitCommands, visitRecorded,
          hdone, writeLedger_nil, searchItems_nil]
  · have hskip : (env.fault (.select v)).isSome ∨ a.dryRun = true := by
      by_contra hcon
      refine hlive ⟨?_, ?_⟩
      · cases hf : env.fault (.select v) with
        | none => rfl
        | some e => exact absurd (Or.inl (by rw [hf]; rfl)) hcon
      · cases hd : a.dryRun with
        | false => rfl
        | true => exact absurd (Or.inr hd) hcon
    have hnot : ¬ VisitCompletes env a v p := fun h => hlive h.1
    simp [runInstance, hskip, visitCommands, hlive, visitRecorded, hnot, writeLedger_nil]

/-- Within a searching rule, a visit that went through sent what it recorded,
and fits in the budget it found. -/
theorem visitSent_of_completes (h : VisitCompletes env a v p) (hsearch : a.rule.hasSearch = true) :
    visitSent env a v p = slices commandSearchChunk (visitItems env a v p) := by
  rw [visitSent, visitCommands, if_pos ⟨h.1, hsearch⟩]
  by_cases hne : visitItems env a v p = []
  · rw [hne]
    rfl
  · exact searchItems_complete (h.2 hsearch hne).1

theorem visitItems_eq (hsearch : a.rule.hasSearch = true) :
    visitItems env a v p =
      searchSelection a v (env.catalog v) p.ledger (visitBinds env a v p) p.remaining := by
  rw [visitItems, selectedRows, if_pos hsearch]
  rfl

/-- The commands a visit sent are the first of its slices. -/
theorem visitSent_first :
    visitSent env a v p <+: slices commandSearchChunk (visitItems env a v p) := by
  unfold visitSent visitCommands
  split
  · exact searchItems_first
  · exact List.nil_prefix

theorem ne_nil_of_mem_visitSent {chunk : List Int} (h : chunk ∈ visitSent env a v p) :
    chunk ≠ [] :=
  ne_nil_of_mem_slices ((visitSent_first env a v p).subset h)

theorem runThrough_nil : runThrough env a runId [] p = p := rfl

theorem runThrough_cons {rest : List Visit} :
    runThrough env a runId (v :: rest) p =
      runThrough env a runId rest (runInstance env a runId v p) := rfl

/-- No instance is visited twice. -/
theorem nodup_runVisits : (runVisits env a).Nodup := by
  have hone : ∀ entity, (((env.integrations entity).filter fun name =>
      a.rule.scope.instances = [] ∨ name ∈ a.rule.scope.instances).map
        (Visit.mk entity)).Nodup := by
    intro entity
    refine ((env.namesUnique entity).filter _).map ?_
    intro name name' h
    exact congrArg Visit.instanceName h
  have htargets : a.rule.targets.Nodup := by
    unfold RuleParams.targets
    split <;> split <;> decide
  unfold runVisits
  split
  · exact List.nodup_nil
  · rw [List.nodup_flatMap]
    refine ⟨fun entity _ => hone entity, ?_⟩
    refine (htargets.sublist (List.takeWhile_sublist _)).imp ?_
    intro entity entity' hne v hv hv'
    obtain ⟨name, -, rfl⟩ := List.mem_map.mp hv
    obtain ⟨name', -, heq⟩ := List.mem_map.mp hv'
    exact hne (congrArg Visit.entity heq).symm

end Run

/-! ## A small library -/

/-- A monitored movie that has no file. -/
def missingMovie (id : Int) : MovieCols where
  title := ""
  year := none
  monitored := true
  path := none
  status := none
  payload := { id := id }
  syncSource := "full"
  syncRunId := 1

/-- Nothing but missing movies, all on one instance. -/
def missingMovies (inst : String) (ids : List Int) : Catalog where
  warehouse :=
    { Warehouse.empty with
      movie := ids.foldl (fun t id => t.upsertLive ⟨id, inst⟩ (missingMovie id) fun cols => cols)
        KeyedTable.empty }
  mal := ⟨KeyedTable.empty, KeyedTable.empty⟩
  lower := .ascii

/-- One Radarr instance, at the default cap, that answers everything. -/
def quietRadarr (c : Catalog) : RunEnv where
  maxSearchesPerDay := 100
  labelKey := id
  integrations := fun entity => if entity = .movie then ["default"] else []
  catalog := fun _ => c
  now := fun _ => 0
  fault := fun _ => none
  settings := ⟨3, id⟩
  attempt := fun _ _ _ => .answered
  tagTear := fun _ _ => none
  monitoredTear := fun _ _ => none
  namesUnique := by intro entity; cases entity <;> simp

/-- A ledger without entries. -/
def RunLedger.empty : RunLedger := ⟨KeyedTable.empty, 1, by simp⟩

/-- An instance without items or tags. -/
def ArrLive.empty : ArrLive := ⟨KeyedTable.empty, KeyedTable.empty, 1, .appending⟩

end Nebularr
