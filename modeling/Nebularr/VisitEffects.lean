import Nebularr.RuleSets

/-!
# What a run leaves of the instances

A live run in which everything goes through carries out its actions at every
instance it visits, once, against sets that depend on the warehouse alone.
What it leaves of an item is what its actions wish of it, settled against the
listing it began with.
-/

namespace Nebularr

/-- Every request and every transaction of a run goes through. -/
structure RunEnv.Untroubled (env : RunEnv) : Prop where
  fault : ∀ point, env.fault point = none
  command : ∀ v n, (env.command v n).error = none
  tagTear : ∀ v, env.tagTear v = fun _ => none
  monitoredTear : ∀ v, env.monitoredTear v = fun _ => none

section Run

variable (env : RunEnv) (a : Automation) (v : Visit) (arr : ArrLive)

/-- The binds under which a visit selects the sets of its actions. -/
def actionBinds : QueryBinds where
  instanceName := v.instanceName
  now := env.now (.select v)
  cooldownDays := a.cooldownDays
  tagIds := arr.tagIds (a.rule.scope.tagsAny.map env.labelKey)

/-- The sets of the actions, which no ledger enters. -/
def actionRows : RowSets := fun sense =>
  (compileCandidates a.rule.withoutSearch v.entity sense (env.catalog v) KeyedTable.empty
    (actionBinds env a v arr)).select searchlessLimit

/-- What the actions of a visit leave of an instance. -/
def actionsLeave : Edited := actionPhase env a v (actionRows env a v arr) ⟨arr, []⟩

variable {env a v arr}

/-- A rule without search actions selects the same rows whatever was searched. -/
theorem compileCandidates_withoutSearch (params : RuleParams) (entity : Entity) (sense : Sense)
    (c : Catalog) (ledger ledger' : ActionLedger) (binds : QueryBinds) :
    compileCandidates params.withoutSearch entity sense c ledger binds =
      compileCandidates params.withoutSearch entity sense c ledger' binds := by
  have hsearch : params.withoutSearch.hasSearch = false := by
    simp [RuleParams.hasSearch_eq]
  simp [compileCandidates, ledgerTime, hsearch]

theorem rowSets_eq {p : RunProgress} (h : (p.edited v).arr = arr) :
    rowSets env a v p = actionRows env a v arr := by
  funext sense
  rw [rowSets, actionRows, compileCandidates_withoutSearch _ _ _ _ p.ledger KeyedTable.empty,
    ← h]
  rfl

/-- An untroubled live visit carries out its actions. -/
theorem edited_runInstance (henv : env.Untroubled) (hlive : a.dryRun = false) (runId : ℕ)
    (p : RunProgress) :
    (runInstance env a runId v p).edited = Function.update p.edited v
      (actionPhase env a v (rowSets env a v p) (p.edited v)) := by
  have hdone : ∀ items, (searchPhase env a runId v items p).2 = none := by
    intro items
    have hanswered : (searchItems (env.command v) items).error = none :=
      searchItems_answered (henv.command v)
    unfold searchPhase
    split
    · simp [hanswered, henv.fault]
    · rfl
  unfold runInstance
  simp only [henv.fault, hlive, Option.isSome_none, Bool.false_eq_true, or_self, if_false]
  have hvisit := hdone ((pruned a (selectedRows env a v p)).map CandidateRow.sourceId)
  rcases hphase : searchPhase env a runId v ((pruned a (selectedRows env a v p)).map
    CandidateRow.sourceId) p with ⟨searched, _ | e⟩
  · rfl
  · rw [hphase] at hvisit
    cases hvisit

/-- The visits of a run, one by one. -/
theorem edited_runThrough (henv : env.Untroubled) (hlive : a.dryRun = false) (runId : ℕ)
    {visits : List Visit} (hnodup : visits.Nodup) :
    ∀ p : RunProgress, (∀ v ∈ visits, p.edited v = ⟨(p.edited v).arr, []⟩) → ∀ v,
      (runThrough env a runId visits p).edited v =
        if v ∈ visits then actionsLeave env a v (p.edited v).arr else p.edited v := by
  induction visits with
  | nil => exact fun p _ v => rfl
  | cons first rest ih =>
      intro p hstart v
      obtain ⟨hnew, hrest⟩ := List.nodup_cons.mp hnodup
      have hvisit : (runInstance env a runId first p).edited = Function.update p.edited first
          (actionsLeave env a first (p.edited first).arr) := by
        rw [edited_runInstance henv hlive, rowSets_eq rfl, actionsLeave,
          ← hstart first List.mem_cons_self]
      have hothers : ∀ v ≠ first, (runInstance env a runId first p).edited v = p.edited v :=
        fun v hv => by rw [hvisit, Function.update_of_ne hv]
      have hnext : ∀ v ∈ rest, (runInstance env a runId first p).edited v =
          ⟨((runInstance env a runId first p).edited v).arr, []⟩ := by
        intro v hv
        have hne : v ≠ first := fun heq => hnew (heq ▸ hv)
        rw [hothers v hne]
        exact hstart v (List.mem_cons_of_mem first hv)
      rw [runThrough_cons, ih hrest _ hnext]
      by_cases hfirst : v = first
      · subst hfirst
        rw [if_neg hnew, if_pos List.mem_cons_self, hvisit, Function.update_self]
      · simp only [hothers v hfirst, List.mem_cons, hfirst, false_or]

/-- **What a run leaves of the instances**: each one it visits, once. -/
theorem edited_runEnd (henv : env.Untroubled) (hlive : a.dryRun = false) (runId : ℕ)
    (ledger : ActionLedger) (arr : Visit → ArrLive) (v : Visit) :
    (runEnd env a runId ledger arr).edited v =
      if v ∈ runVisits env a then actionsLeave env a v (arr v) else ⟨arr v, []⟩ :=
  edited_runThrough henv hlive runId (nodup_runVisits env a) (runStart env a ledger arr)
    (fun _ _ => rfl) v

/-! ## What one visit leaves -/

variable (env a v arr)

/-- The ids of the rule's labels, once they have all been created. -/
def labelIds (label : String) : Option Int :=
  (arr.labelled env.labelKey (tagActions a.rule.toRuleParams)).findTag (env.labelKey label)

/-- The sets of the rule that an item is in. -/
def visitSets (i : Int) : Sense → Bool := inSet v.entity (actionRows env a v arr) i

/-- `senses_needed`. -/
def sensesNeeded (params : RuleParams) : List Sense :=
  (tagActions params).map Prod.snd ++ (monitoredActions params).map Prod.snd

theorem mem_sensesNeeded_of_tagAction {params : RuleParams} {action : String × Sense}
    (h : action ∈ tagActions params) : action.2 ∈ sensesNeeded params :=
  List.mem_append_left _ (List.mem_map_of_mem h)

theorem mem_sensesNeeded_of_monitoredAction {params : RuleParams} {action : Bool × Sense}
    (h : action ∈ monitoredActions params) : action.2 ∈ sensesNeeded params :=
  List.mem_append_right _ (List.mem_map_of_mem h)

/-- No set that the actions need reaches the limit. -/
def SetsBelowLimit : Prop :=
  ∀ sense ∈ sensesNeeded a.rule.toRuleParams,
    (actionRows env a v arr sense).length < searchlessLimit

/-- The monitored flag that the actions leave an item. -/
def flagLeft (i : Int) (item : LiveItem) : Bool :=
  settle item.monitored
    (monitoredWishes (visitSets env a v arr i) (monitoredActions a.rule.toRuleParams))

/-- Whether the actions leave an item a tag. -/
def tagLeft (i : Int) (item : LiveItem) (tag : Int) : Bool :=
  settle (item.hasTag tag)
    (tagWishes (labelIds env a arr) (visitSets env a v arr i) (tagActions a.rule.toRuleParams) tag)

variable {env a v arr}

theorem labelIds_isSome (hfresh : arr.FreshTags) :
    ∀ action ∈ tagActions a.rule.toRuleParams, (labelIds env a arr action.1).isSome = true :=
  fun _ haction => ArrLive.isSome_findTag_withLabels hfresh (List.mem_map_of_mem haction)

theorem actionsLeave_eq (henv : env.Untroubled) (hfresh : arr.FreshTags) :
    let ensured := arr.labelled env.labelKey (tagActions a.rule.toRuleParams)
    let tagging := tagCalls v.entity (actionRows env a v arr) (labelIds env a arr) arr.items
      (tagActions a.rule.toRuleParams)
    let flagging := monitoredCalls v.entity (actionRows env a v arr) (ensured.edits tagging).items
      (monitoredActions a.rule.toRuleParams)
    actionsLeave env a v arr = ⟨(ensured.edits tagging).edits flagging, tagging ++ flagging⟩ := by
  intro ensured tagging flagging
  obtain ⟨herror, hstate⟩ := applyTagActions_untorn env.labelKey v.entity (actionRows env a v arr)
    a.rule.toRuleParams (s := ⟨arr, []⟩) hfresh
  unfold actionsLeave actionPhase
  simp only [henv.fault, henv.tagTear, henv.monitoredTear, Option.isNone_none, Bool.or_true,
    if_true, herror, true_and, applyMonitoredActions_untorn]
  rw [hstate]
  rfl

/-- **What the actions leave of an item**: the flag and the tags that settle. -/
theorem row_actionsLeave (henv : env.Untroubled) (hfresh : arr.FreshTags)
    (hbelow : SetsBelowLimit env a v arr) {i : Int} {item : LiveItem}
    (hitem : arr.items.row i = some item) :
    ∃ item', (actionsLeave env a v arr).arr.items.row i = some item' ∧
      item'.monitored = flagLeft env a v arr i item ∧
      ∀ t, item'.hasTag t = tagLeft env a v arr i item t := by
  obtain ⟨hmonitored, htags⟩ := edited_tagCalls v.entity (actionRows env a v arr)
    arr.editor (labelIds env a arr) hitem
    (fun action haction => hbelow _ (mem_sensesNeeded_of_tagAction haction))
    (labelIds_isSome hfresh) item
  let tagging := tagCalls v.entity (actionRows env a v arr) (labelIds env a arr) arr.items
    (tagActions a.rule.toRuleParams)
  have htagged : ((arr.labelled env.labelKey (tagActions a.rule.toRuleParams)).edits
      tagging).items.row i = some (item.edited arr.editor i tagging) := by
    rw [ArrLive.row_edits, ArrLive.items_labelled, ArrLive.editor_labelled, hitem,
      Option.map_some]
  obtain ⟨htags', hmonitored'⟩ := edited_monitoredCalls v.entity (actionRows env a v arr)
    arr.editor htagged (monitoredActions a.rule.toRuleParams) (item.edited arr.editor i tagging)
  refine ⟨(item.edited arr.editor i tagging).edited arr.editor i (monitoredCalls v.entity
    (actionRows env a v arr)
      ((arr.labelled env.labelKey (tagActions a.rule.toRuleParams)).edits tagging).items
    (monitoredActions a.rule.toRuleParams)), ?_, ?_, ?_⟩
  · rw [actionsLeave_eq henv hfresh, ArrLive.row_edits, htagged, Option.map_some,
      ArrLive.editor_edits, ArrLive.editor_labelled]
  · rw [hmonitored', hmonitored]
    rfl
  · intro t
    rw [LiveItem.hasTag, htags']
    exact htags t

theorem isSome_row_actionsLeave (henv : env.Untroubled) (hfresh : arr.FreshTags) (i : Int) :
    ((actionsLeave env a v arr).arr.items.row i).isSome = (arr.items.row i).isSome := by
  rw [actionsLeave_eq henv hfresh, ArrLive.row_edits, ArrLive.row_edits, ArrLive.items_labelled]
  simp

/-- The labels an instance knows after a visit are those that were ensured. -/
theorem findTag_actionsLeave (henv : env.Untroubled) (hfresh : arr.FreshTags) (key : String) :
    (actionsLeave env a v arr).arr.findTag key =
      (arr.labelled env.labelKey (tagActions a.rule.toRuleParams)).findTag key := by
  rw [actionsLeave_eq henv hfresh]
  simp

theorem freshTags_actionsLeave (henv : env.Untroubled) (hfresh : arr.FreshTags) :
    (actionsLeave env a v arr).arr.FreshTags := by
  rw [actionsLeave_eq henv hfresh]
  intro id hid
  simp only [ArrLive.labels_edits]
  exact hfresh.labelled _ _ id (by simpa using hid)

/-- **When a visit makes no call**: every label of the rule is where its set is,
and the items of the monitored sets have their values. -/
theorem calls_actionsLeave_eq_nil_iff (henv : env.Untroubled) (hfresh : arr.FreshTags)
    (hbelow : SetsBelowLimit env a v arr) :
    (actionsLeave env a v arr).calls = [] ↔
      ∀ i item, arr.items.row i = some item →
        (∀ action ∈ tagActions a.rule.toRuleParams, ∀ t, labelIds env a arr action.1 = some t →
          visitSets env a v arr i action.2 = item.hasTag t) ∧
        ∀ action ∈ monitoredActions a.rule.toRuleParams,
          visitSets env a v arr i action.2 = true → item.monitored = action.1 := by
  have htagging : tagCalls v.entity (actionRows env a v arr) (labelIds env a arr) arr.items
      (tagActions a.rule.toRuleParams) = [] ↔
      ∀ action ∈ tagActions a.rule.toRuleParams, ∀ t, labelIds env a arr action.1 = some t →
        ∀ i item, arr.items.row i = some item →
          visitSets env a v arr i action.2 = item.hasTag t := by
    rw [tagCalls, List.flatMap_eq_nil_iff]
    refine forall₂_congr fun action haction => ?_
    obtain ⟨t, ht⟩ := Option.isSome_iff_exists.mp (labelIds_isSome hfresh action haction)
    have hlength := hbelow _ (mem_sensesNeeded_of_tagAction haction)
    rw [ht, Option.getD_some, tagEdits_eq_nil_iff hlength]
    simp [visitSets]
  have hflagging : ∀ live, (∀ i, live.row i = arr.items.row i) →
      (monitoredCalls v.entity (actionRows env a v arr) live
        (monitoredActions a.rule.toRuleParams) = [] ↔
      ∀ action ∈ monitoredActions a.rule.toRuleParams, ∀ i item, arr.items.row i = some item →
        visitSets env a v arr i action.2 = true → item.monitored = action.1) := by
    intro live hlive
    rw [monitoredCalls, List.flatMap_eq_nil_iff]
    refine forall₂_congr fun action haction => ?_
    rw [monitoredEdits_eq_nil_iff]
    simp only [hlive, visitSets]
  -- once no tag call is made, the listing for the monitor actions is the first one
  have hlisting : tagCalls v.entity (actionRows env a v arr) (labelIds env a arr) arr.items
      (tagActions a.rule.toRuleParams) = [] → ∀ i,
      ((arr.labelled env.labelKey (tagActions a.rule.toRuleParams)).edits
        (tagCalls v.entity (actionRows env a v arr) (labelIds env a arr) arr.items
          (tagActions a.rule.toRuleParams))).items.row i = arr.items.row i := by
    intro hnone i
    rw [hnone]
    exact congrArg (fun t => t.row i) (arr.items_labelled env.labelKey _)
  rw [actionsLeave_eq henv hfresh, List.append_eq_nil_iff]
  constructor
  · rintro ⟨htags, hflags⟩ i item hitem
    rw [hflagging _ (hlisting htags)] at hflags
    exact ⟨fun action haction t ht => htagging.mp htags action haction t ht i item hitem,
      fun action haction => hflags action haction i item hitem⟩
  · intro h
    have htags := htagging.mpr fun action haction t ht i item hitem =>
      (h i item hitem).1 action haction t ht
    refine ⟨htags, (hflagging _ (hlisting htags)).mpr ?_⟩
    intro action haction i item hitem
    exact (h i item hitem).2 action haction

/-- **The sets of a visit**: what is admitted on file and fits. -/
theorem visitSets_iff (hbelow : SetsBelowLimit env a v arr) {sense : Sense}
    (hsense : sense ∈ sensesNeeded a.rule.toRuleParams) {i : Int} :
    visitSets env a v arr i sense = true ↔
      AdmittedOnFile a.rule.toRuleParams (env.catalog v) (actionBinds env a v arr) v.entity i ∧
        Fits a.rule.toRuleParams (env.catalog v) (actionBinds env a v arr) v.entity sense i := by
  rw [← mem_targets_iff, visitSets, inSet, decide_eq_true_eq, actionRows,
    CompiledQuery.select_eq_ordered (hbelow sense hsense)]

end Run

end Nebularr
