import Nebularr.FailureReasons
import Nebularr.GroupFold
import Nebularr.VisitEffects

/-!
# The reasons an instance reports

A visit of a rule about failing items puts a summary of the reasons into the
details of the instance, for the rows it has at hand: the full set, when a tag
or monitor action loaded it, and else what the search selected.  Which sense the
rule is about is read again after the loop that loads the sets, from the variable
that this loop runs over.  So a searching rule whose actions are all about
conforming items leaves the loop with the other sense, and its summary out.
-/

namespace Nebularr

/-! ## The summary -/

section Summary

variable (lower : Lowering) (require : RuleRequire) (entity : Entity)

/-- `failure_reasons(row, params.require) or ["unknown"]`. -/
def reportedReasons (row : CandidateRow) : List String :=
  match failureReasons lower require row with
  | [] => ["unknown"]
  | reasons => reasons.map FailureReason.text

/-- An entry of `failure_worst`. -/
structure WorstItem where
  title : String
  items : ℕ
  reasons : List String
deriving DecidableEq, Repr

/-- What `_reason_summary` returns. -/
structure ReasonSummary where
  failureReasons : List (String × ℕ)
  failureWorst : List WorstItem
deriving DecidableEq, Repr

/-- Episodes are grouped by their show, movies stand for themselves. -/
def groupKey (row : CandidateRow) : Option Int :=
  match entity with
  | .episode => row.seriesSourceId
  | .movie => some row.sourceId

def groupTitle (row : CandidateRow) : String :=
  match entity with
  | .episode => row.seriesTitle.getD ""
  | .movie => row.title

/-- `totals`. -/
def reasonTotals (rows : List CandidateRow) : List (String × ℕ) :=
  tally (rows.flatMap (reportedReasons lower require))

/-- `per_item`. -/
def perItem (rows : List CandidateRow) : List (Option Int × WorstItem) :=
  groupFold (groupKey entity) (fun row => ⟨groupTitle entity row, 0, []⟩)
    (fun row entry =>
      { entry with
        items := entry.items + 1
        reasons := sortedSet (entry.reasons ++ reportedReasons lower require row) }) rows

/-- `key=lambda kv: (-kv[1], kv[0])`. -/
def totalsOrder (a b : String × ℕ) : Prop := b.2 < a.2 ∨ (a.2 = b.2 ∧ a.1 ≤ b.1)

instance (a b : String × ℕ) : Decidable (totalsOrder a b) := by
  unfold totalsOrder
  infer_instance

/-- `key=lambda e: (-e["items"], e["title"])`. -/
def worstOrder (a b : WorstItem) : Prop :=
  b.items < a.items ∨ (a.items = b.items ∧ a.title ≤ b.title)

instance (a b : WorstItem) : Decidable (worstOrder a b) := by
  unfold worstOrder
  infer_instance

/-- `_reason_summary`. -/
def reasonSummary (rows : List CandidateRow) : ReasonSummary where
  failureReasons := (reasonTotals lower require rows).insertionSort totalsOrder
  failureWorst :=
    (((perItem lower require entity rows).map Prod.snd).insertionSort worstOrder).take 20

/-- The totals of a summary are what `failure_reasons` says of the rows; a row
of which it says nothing counts as unknown. -/
structure ReasonSummary.Counts (summary : ReasonSummary) (rows : List CandidateRow) : Prop where
  named : ∀ reason n, (FailureReason.text reason, n) ∈ summary.failureReasons ↔
    0 < n ∧ n = rows.countP fun row => reason ∈ Nebularr.failureReasons lower require row
  unexplained : ∀ n, ("unknown", n) ∈ summary.failureReasons ↔
    0 < n ∧ n = rows.countP fun row => Nebularr.failureReasons lower require row = []
  nothingElse : ∀ entry ∈ summary.failureReasons,
    entry.1 = "unknown" ∨ ∃ reason, entry.1 = FailureReason.text reason
  once : (summary.failureReasons.map Prod.fst).Nodup

variable {lower require entity}

theorem FailureReason.text_injective : Function.Injective FailureReason.text := by
  intro r r' h
  cases r <;> cases r' <;> simp_all [FailureReason.text]

theorem FailureReason.text_ne_unknown (reason : FailureReason) : reason.text ≠ "unknown" := by
  cases reason <;> simp [FailureReason.text]

private theorem sublist_named {p : Prop} [Decidable p] (named : FailureReason) :
    (if p then [named] else []).Sublist [named] := by
  by_cases hp : p
  · rw [if_pos hp]
  · rw [if_neg hp]
    exact List.nil_sublist _

/-- No reason is given twice. -/
theorem nodup_failureReasons (row : CandidateRow) : (failureReasons lower require row).Nodup := by
  have hfloor : (require.resolutionMin.elim [] fun floor =>
      if (row.file.bind MediaCols.videoResolution).getD 0 < floor then
        [FailureReason.resolution] else []).Sublist [.resolution] := by
    cases require.resolutionMin with
    | none => exact List.nil_sublist _
    | some floor => exact sublist_named .resolution
  unfold failureReasons
  split
  · exact List.nodup_singleton _
  · refine (List.perm_insertionSort _ _).nodup_iff.mpr ?_
    have hfive : [FailureReason.audioLanguage, .subtitleLanguage, .resolution, .videoCodec,
        .quality].Nodup := by decide
    refine List.Nodup.sublist ?_ hfive
    exact ((((sublist_named _).append (sublist_named _)).append hfloor).append
      (sublist_named _)).append (sublist_named _)

theorem count_reportedReasons_text (reason : FailureReason) (row : CandidateRow) :
    (reportedReasons lower require row).count reason.text =
      if reason ∈ failureReasons lower require row then 1 else 0 := by
  have hnodup : (failureReasons lower require row).Nodup := nodup_failureReasons row
  unfold reportedReasons
  cases hreasons : failureReasons lower require row with
  | nil => simp [reason.text_ne_unknown.symm]
  | cons first rest =>
      rw [hreasons] at hnodup
      rw [List.count_map_of_injective _ _ FailureReason.text_injective, hnodup.count]

theorem count_reportedReasons_unknown (row : CandidateRow) :
    (reportedReasons lower require row).count "unknown" =
      if failureReasons lower require row = [] then 1 else 0 := by
  unfold reportedReasons
  cases failureReasons lower require row with
  | nil => simp
  | cons first rest =>
      rw [if_neg (List.cons_ne_nil _ _), List.count_eq_zero]
      intro hmem
      obtain ⟨reason, _, htext⟩ := List.mem_map.mp hmem
      exact reason.text_ne_unknown htext

/-- A count over all rows, from what one row adds to it. -/
theorem count_flatMap_reported {key : String} {p : CandidateRow → Prop} [DecidablePred p]
    (h : ∀ row, (reportedReasons lower require row).count key = if p row then 1 else 0)
    (rows : List CandidateRow) :
    (rows.flatMap (reportedReasons lower require)).count key = rows.countP fun row => p row := by
  induction rows with
  | nil => rfl
  | cons row rest ih =>
      rw [List.flatMap_cons, List.count_append, ih, h, List.countP_cons]
      simp only [decide_eq_true_eq]
      omega

/-- **The totals count the reasons.** -/
theorem counts_reasonSummary (rows : List CandidateRow) :
    (reasonSummary lower require entity rows).Counts lower require rows := by
  have hmem : ∀ entry, entry ∈ (reasonSummary lower require entity rows).failureReasons ↔
      0 < entry.2 ∧
        entry.2 = (rows.flatMap (reportedReasons lower require)).count entry.1 := by
    intro entry
    rw [reasonSummary, List.mem_insertionSort, reasonTotals, mem_tally]
  constructor
  · intro reason n
    rw [hmem, count_flatMap_reported (count_reportedReasons_text reason)]
  · intro n
    rw [hmem, count_flatMap_reported count_reportedReasons_unknown]
  · intro entry hentry
    obtain ⟨hpos, hn⟩ := (hmem entry).mp hentry
    rw [hn, List.count_pos_iff] at hpos
    obtain ⟨row, _, hreported⟩ := List.mem_flatMap.mp hpos
    unfold reportedReasons at hreported
    split at hreported
    · exact Or.inl (List.mem_singleton.mp hreported)
    · obtain ⟨reason, _, htext⟩ := List.mem_map.mp hreported
      exact Or.inr ⟨reason, htext.symm⟩
  · have hperm := (List.perm_insertionSort totalsOrder (reasonTotals lower require rows)).map
      Prod.fst
    exact hperm.nodup_iff.mpr nodup_keys_groupFold

end Summary

/-! ## The details of an instance -/

def Sense.text : Sense → String
  | nonConforming => "non_conforming"
  | conforming => "conforming"

/-- `sorted(senses_needed)`. -/
def sortedSenses (params : RuleParams) : List Sense :=
  (sensesNeeded params).dedup.insertionSort fun a b => a.text ≤ b.text

/-- `row_sets` and `sense`, which the loading loop runs over. -/
structure LoadedSets where
  sets : Sense → Option (List CandidateRow)
  sense : Sense

/-- What the details of an instance say of the selected rows. -/
structure InstanceDetails where
  matched : ℕ
  matchedUnit : Option String
  reasons : Option ReasonSummary
deriving DecidableEq, Repr

/-- `"series" if counts_series(params, entity) else f"{entity}s"`. -/
def matchedUnit (params : RuleParams) (entity : Entity) : String :=
  match entity with
  | .movie => "movies"
  | .episode => if params.primarySense = .conforming then "series" else "episodes"

section Visit

variable (lower : Lowering) (env : RunEnv) (a : Automation) (v : Visit) (p : RunProgress)

/-- The loop over the senses that the actions need. -/
def loadSets : LoadedSets :=
  (sortedSenses a.rule.toRuleParams).foldl
    (fun s sense => ⟨Function.update s.sets sense (some (rowSets env a v p sense)), sense⟩)
    ⟨fun _ => none, a.rule.primarySense⟩

/-- `reason_rows`. -/
def reasonRows : Option (List CandidateRow) :=
  let loaded := loadSets env a v p
  (loaded.sets .nonConforming).or
    (if loaded.sense = .nonConforming then some (pruned a (selectedRows env a v p)) else none)

/-- The part of `_run_instance` that fills in the details, dry run or not. -/
def instanceDetails : InstanceDetails :=
  if (env.fault (.select v)).isSome then ⟨0, none, none⟩
  else
    { matched := (pruned a (selectedRows env a v p)).length
      matchedUnit := some (matchedUnit a.rule.toRuleParams v.entity)
      reasons := ((reasonRows env a v p).filter (· ≠ [])).map
        (reasonSummary lower a.rule.require v.entity) }

/-- The non-conforming rows that a visit selects: the full set where an action
works on it, and the candidates of the search where none does. -/
def nonConformingRows : List CandidateRow :=
  if (env.fault (.select v)).isSome then []
  else if .nonConforming ∈ sensesNeeded a.rule.toRuleParams then rowSets env a v p .nonConforming
  else pruned a (selectedRows env a v p)

/-- The details of an instance with failing rows carry their counts. -/
def ReasonsReported : Prop :=
  a.rule.primarySense = .nonConforming → nonConformingRows env a v p ≠ [] →
    ∃ summary, (instanceDetails lower env a v p).reasons = some summary ∧
      summary.Counts lower a.rule.require (nonConformingRows env a v p)

theorem mem_sortedSenses {params : RuleParams} {sense : Sense} :
    sense ∈ sortedSenses params ↔ sense ∈ sensesNeeded params := by
  rw [sortedSenses, List.mem_insertionSort, List.mem_dedup]

/-- What the loop leaves: the sets it ran over, and the last sense of them. -/
theorem loadSets_spec :
    (∀ sense, (loadSets env a v p).sets sense =
      if sense ∈ sensesNeeded a.rule.toRuleParams then some (rowSets env a v p sense) else none) ∧
    (loadSets env a v p).sense =
      (sortedSenses a.rule.toRuleParams).getLast?.getD a.rule.primarySense := by
  have hloop : ∀ (senses : List Sense) (s : LoadedSets),
      let s' := senses.foldl (fun s sense =>
        ⟨Function.update s.sets sense (some (rowSets env a v p sense)), sense⟩) s
      (∀ sense, s'.sets sense =
        if sense ∈ senses then some (rowSets env a v p sense) else s.sets sense) ∧
      s'.sense = senses.getLast?.getD s.sense := by
    intro senses s
    induction senses generalizing s with
    | nil => simp
    | cons first rest ih =>
        obtain ⟨hsets, hsense⟩ := ih
          ⟨Function.update s.sets first (some (rowSets env a v p first)), first⟩
        refine ⟨fun sense => ?_, ?_⟩
        · rw [List.foldl_cons, hsets]
          by_cases hrest : sense ∈ rest
          · simp [hrest]
          · by_cases hfirst : sense = first
            · simp [hfirst]
            · simp [hrest, hfirst]
        · rw [List.foldl_cons, hsense, List.getLast?_cons]
          rfl
  obtain ⟨hsets, hsense⟩ := hloop (sortedSenses a.rule.toRuleParams)
    ⟨fun _ => none, a.rule.primarySense⟩
  refine ⟨fun sense => ?_, hsense⟩
  rw [loadSets, hsets]
  simp only [mem_sortedSenses]

variable {lower env a v p}

/-- A rule about failing items no action of which loads their set is a searching
one. -/
theorem hasSearch_of_primarySense (params : RuleParams)
    (hprimary : params.primarySense = .nonConforming)
    (hneeded : .nonConforming ∉ sensesNeeded params) : params.hasSearch = true := by
  unfold RuleParams.primarySense at hprimary
  split at hprimary
  · rename_i hany
    obtain ⟨action, hmem, hsense⟩ := List.any_eq_true.mp hany
    have hfailing : action.sense = .nonConforming := of_decide_eq_true hsense
    refine List.any_eq_true.mpr ⟨action, hmem, ?_⟩
    cases action with
    | searchMissing => rfl
    | searchUpgrade => rfl
    | tag label sense =>
        have htag : (label, sense) ∈ tagActions params := List.mem_filterMap.mpr ⟨_, hmem, rfl⟩
        exact absurd (hfailing ▸ mem_sensesNeeded_of_tagAction htag) hneeded
    | setMonitored value sense =>
        have hset : (value, sense) ∈ monitoredActions params :=
          List.mem_filterMap.mpr ⟨_, hmem, rfl⟩
        exact absurd (hfailing ▸ mem_sensesNeeded_of_monitoredAction hset) hneeded
  · cases hprimary

/-- Unless the loop ends on the other sense, the rows that are summarised are
the failing ones. -/
theorem reasonRows_eq (hprimary : a.rule.primarySense = .nonConforming)
    (hfault : env.fault (.select v) = none) :
    reasonRows env a v p =
      if .nonConforming ∉ sensesNeeded a.rule.toRuleParams ∧
          sensesNeeded a.rule.toRuleParams ≠ [] then none
      else some (nonConformingRows env a v p) := by
  obtain ⟨hsets, hsense⟩ := loadSets_spec env a v p
  have hrows : nonConformingRows env a v p =
      if .nonConforming ∈ sensesNeeded a.rule.toRuleParams then rowSets env a v p .nonConforming
      else pruned a (selectedRows env a v p) := by
    simp [nonConformingRows, hfault]
  rw [reasonRows, hsets, hsense, hrows]
  by_cases hneeded : .nonConforming ∈ sensesNeeded a.rule.toRuleParams
  · simp [hneeded]
  · by_cases hnone : sensesNeeded a.rule.toRuleParams = []
    · have hsorted : sortedSenses a.rule.toRuleParams = [] := by simp [sortedSenses, hnone]
      simp [hnone, hsorted, hprimary]
    · obtain ⟨sense, hmem⟩ := List.exists_mem_of_ne_nil _ hnone
      have hsorted : sortedSenses a.rule.toRuleParams ≠ [] :=
        List.ne_nil_of_mem (mem_sortedSenses.mpr hmem)
      have hlast := mem_sortedSenses.mp (List.getLast_mem hsorted)
      have hother : (sortedSenses a.rule.toRuleParams).getLast hsorted ≠ .nonConforming :=
        fun heq => hneeded (heq ▸ hlast)
      simp [hneeded, hnone, List.getLast?_eq_some_getLast hsorted, hother]

/-- **Where the reasons of the failing rows are reported**: unless the rule
searches and all its other actions are about conforming items. -/
theorem reasonsReported_iff :
    ReasonsReported lower env a v p ↔
      (env.fault (.select v) = none → a.rule.hasSearch = true →
        .nonConforming ∉ sensesNeeded a.rule.toRuleParams →
        sensesNeeded a.rule.toRuleParams ≠ [] → pruned a (selectedRows env a v p) = []) := by
  constructor
  · intro h hfault hsearch hneeded hothers
    by_contra hcandidates
    have hprimary := a.rule.toRuleParams.primarySense_of_hasSearch hsearch
    have hrows : nonConformingRows env a v p = pruned a (selectedRows env a v p) := by
      simp [nonConformingRows, hfault, hneeded]
    obtain ⟨summary, hsummary, _⟩ := h hprimary (by rwa [hrows])
    simp [instanceDetails, hfault, reasonRows_eq hprimary hfault, hneeded, hothers] at hsummary
  · intro h hprimary hrows
    have hfault : env.fault (.select v) = none := by
      by_contra hraised
      exact hrows (by simp [nonConformingRows, Option.isSome_iff_ne_none, hraised])
    have hloaded : ¬ (.nonConforming ∉ sensesNeeded a.rule.toRuleParams ∧
        sensesNeeded a.rule.toRuleParams ≠ []) := by
      intro ⟨hneeded, hothers⟩
      have hsearch := hasSearch_of_primarySense _ hprimary hneeded
      have hcandidates := h hfault hsearch hneeded hothers
      exact hrows (by simp [nonConformingRows, hfault, hneeded, hcandidates])
    refine ⟨reasonSummary lower a.rule.require v.entity (nonConformingRows env a v p), ?_,
      counts_reasonSummary _⟩
    simp [instanceDetails, hfault, reasonRows_eq hprimary hfault, hloaded, hrows]

end Visit

/-- A rule that looks for missing movies and tags the finished ones. -/
def hunterAndTagger : Automation where
  id := 1
  rule :=
    { actions := [.searchMissing, .tag "done" .conforming]
      actsSomehow := by simp
      upgradeNamesTarget := by decide
      newDubIsGated := defaultOptions_gated
      statusOfSeries := defaultScope_status
      tagsAreLabelled := by
        intro label sense hmem
        simp only [List.mem_cons, RuleAction.tag.injEq, reduceCtorEq, List.not_mem_nil, or_false,
          false_or] at hmem
        exact ⟨'d', by simp [hmem.1], by decide⟩ }
  dryRun := false
  budgetPerRun := 10
  cooldownDays := 7
  dubStatusSeen := fun _ => none
  budgetBounds := defaultBudget_bounds
  cooldownBounds := defaultCooldown_bounds

/-- It finds a missing movie, and the details do not say why. -/
theorem not_reasonsReported_hunterAndTagger :
    ¬ ReasonsReported ⟨String.toLower, String.toLower⟩ (quietRadarr (missingMovies "default" [1]))
      hunterAndTagger ⟨.movie, "default"⟩
      (runStart (quietRadarr (missingMovies "default" [1])) hunterAndTagger KeyedTable.empty
        fun _ => ArrLive.empty) := by
  intro h
  have hrows : nonConformingRows (quietRadarr (missingMovies "default" [1])) hunterAndTagger
      ⟨.movie, "default"⟩ (runStart (quietRadarr (missingMovies "default" [1])) hunterAndTagger
        KeyedTable.empty fun _ => ArrLive.empty) ≠ [] := by
    decide +kernel
  obtain ⟨summary, hsummary, _⟩ := h (by decide) hrows
  rw [instanceDetails, if_neg (by decide), reasonRows_eq (by decide) rfl, if_pos (by decide)]
    at hsummary
  simp at hsummary

end Nebularr
