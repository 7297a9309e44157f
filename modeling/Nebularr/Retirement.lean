import Nebularr.ScopeRefresh
import Nebularr.VisitEffects

/-!
# A rule run twice

A run, a sync that writes the tags and flags it left back to the warehouse, and
a second run of the same rule.  Nothing else changes in between, so an item is
in the sets of the second run when the scope admits it *as the first run left
it*.  A rule that moves an item out of its own scope finds its label on an item
that no set names any more, and takes the label off again.
-/

namespace Nebularr

section Visit

variable (env : RunEnv) (a : Automation) (v : Visit) (arr : ArrLive)

/-! ## When the second visit finds nothing to do -/

/-- The scope admits an item as the actions leave it. -/
def AdmittedLater (i : Int) (item : LiveItem) : Prop :=
  a.rule.scope.Admits ((arr.labelled env.labelKey (tagActions a.rule.toRuleParams)).tagIds
    (a.rule.scope.tagsAny.map env.labelKey)) (flagLeft env a v arr i item)
    (tagLeft env a v arr i item)

/-- The actions of a rule do not contradict each other on an item: those on one
label all want it or all do not, and those that set its flag have one value. -/
def ActionsAgree (i : Int) : Prop :=
  (∀ action ∈ tagActions a.rule.toRuleParams, ∀ action' ∈ tagActions a.rule.toRuleParams,
      env.labelKey action.1 = env.labelKey action'.1 →
        visitSets env a v arr i action.2 = visitSets env a v arr i action'.2) ∧
    ∀ action ∈ monitoredActions a.rule.toRuleParams,
      ∀ action' ∈ monitoredActions a.rule.toRuleParams,
        visitSets env a v arr i action.2 = true → visitSets env a v arr i action'.2 = true →
          action.1 = action'.1

/-- A rule is done with an item after one run. -/
structure DoneWith (i : Int) (item : LiveItem) : Prop where
  /-- On an item that stays in scope the actions agree. -/
  staying : AdmittedOnFile a.rule.toRuleParams (env.catalog v)
    (actionBinds env a v arr) v.entity i →
    AdmittedLater env a v arr i item → ActionsAgree env a v arr i
  /-- An item that the actions move out of scope is left without a label. -/
  leaving : AdmittedOnFile a.rule.toRuleParams (env.catalog v)
    (actionBinds env a v arr) v.entity i →
    ¬ AdmittedLater env a v arr i item → ∀ action ∈ tagActions a.rule.toRuleParams, ∀ t,
      labelIds env a arr action.1 = some t → tagLeft env a v arr i item t = false
  /-- An item that the warehouse wrongly had out of scope fits no tag action,
  and no monitor action that would change it. -/
  entering :
    ¬ AdmittedOnFile a.rule.toRuleParams (env.catalog v) (actionBinds env a v arr) v.entity i →
      AdmittedLater env a v arr i item →
      (∀ action ∈ tagActions a.rule.toRuleParams, ¬ Fits a.rule.toRuleParams (env.catalog v)
        (actionBinds env a v arr) v.entity action.2 i) ∧
      ∀ action ∈ monitoredActions a.rule.toRuleParams, Fits a.rule.toRuleParams (env.catalog v)
        (actionBinds env a v arr) v.entity action.2 i → item.monitored = action.1

variable {env a v arr}

/-- Later sets are silent on an item when they find what the first ones left. -/
def SilentOn (env : RunEnv) (a : Automation) (v : Visit) (arr : ArrLive) (sets' : Sense → Bool)
    (i : Int) (item : LiveItem) : Prop :=
  (∀ action ∈ tagActions a.rule.toRuleParams, ∀ t, labelIds env a arr action.1 = some t →
      sets' action.2 = tagLeft env a v arr i item t) ∧
    ∀ action ∈ monitoredActions a.rule.toRuleParams,
      sets' action.2 = true → flagLeft env a v arr i item = action.1

theorem labelIds_eq_iff {action action' : String × Sense} {t : Int}
    (h : labelIds env a arr action.1 = some t) :
    labelIds env a arr action'.1 = some t ↔
      env.labelKey action.1 = env.labelKey action'.1 := by
  unfold labelIds at h ⊢
  constructor
  · intro h'
    exact ArrLive.findTag_inj h h'
  · intro hkey
    rwa [← hkey]

/-- **Where the sets are the same, silence is agreement.** -/
theorem silentOn_same_iff (hfresh : arr.FreshTags) {i : Int} {item : LiveItem} :
    SilentOn env a v arr (visitSets env a v arr i) i item ↔ ActionsAgree env a v arr i := by
  constructor
  · rintro ⟨htags, hflags⟩
    refine ⟨fun action haction action' haction' hkey => ?_,
      fun action haction action' haction' hset hset' => ?_⟩
    · obtain ⟨t, ht⟩ := Option.isSome_iff_exists.mp (labelIds_isSome hfresh action haction)
      rw [htags action haction t ht, htags action' haction' t ((labelIds_eq_iff ht).mpr hkey)]
    · rw [← hflags action haction hset, ← hflags action' haction' hset']
  · rintro ⟨htags, hflags⟩
    refine ⟨fun action haction t ht => ?_, fun action haction hset => ?_⟩
    · refine (settle_of_forall (List.ne_nil_of_mem (mem_tagWishes.mpr
        ⟨action, haction, ht, rfl⟩)) fun wish hwish => ?_).symm
      obtain ⟨action', haction', ht', rfl⟩ := mem_tagWishes.mp hwish
      exact htags action' haction' action haction ((labelIds_eq_iff ht).mp ht').symm
    · refine settle_of_forall (List.ne_nil_of_mem (mem_monitoredWishes.mpr
        ⟨action, haction, hset, rfl⟩)) fun wish hwish => ?_
      obtain ⟨action', haction', hset', rfl⟩ := mem_monitoredWishes.mp hwish
      exact hflags action' haction' action haction hset' hset

/-- An item that is in no set loses the rule's labels and keeps its flag. -/
theorem left_of_no_set {i : Int} (item : LiveItem)
    (h : ∀ sense ∈ sensesNeeded a.rule.toRuleParams, visitSets env a v arr i sense = false) :
    (∀ action ∈ tagActions a.rule.toRuleParams, ∀ t, labelIds env a arr action.1 = some t →
      tagLeft env a v arr i item t = false) ∧ flagLeft env a v arr i item = item.monitored := by
  constructor
  · intro action haction t ht
    refine settle_of_forall (List.ne_nil_of_mem (mem_tagWishes.mpr ⟨action, haction, ht, rfl⟩))
      fun wish hwish => ?_
    obtain ⟨action', haction', -, rfl⟩ := mem_tagWishes.mp hwish
    exact h _ (mem_sensesNeeded_of_tagAction haction')
  · have hnone : monitoredWishes (visitSets env a v arr i)
        (monitoredActions a.rule.toRuleParams) = [] := by
      rw [List.eq_nil_iff_forall_not_mem]
      intro wish hwish
      obtain ⟨action, haction, hset, -⟩ := mem_monitoredWishes.mp hwish
      rw [h _ (mem_sensesNeeded_of_monitoredAction haction)] at hset
      cases hset
    rw [flagLeft, hnone, settle_nil]

/-- Sets that agree on what the actions need are silent together. -/
theorem silentOn_congr {sets sets' : Sense → Bool} {i : Int} {item : LiveItem}
    (h : ∀ sense ∈ sensesNeeded a.rule.toRuleParams, sets sense = sets' sense) :
    SilentOn env a v arr sets i item ↔ SilentOn env a v arr sets' i item := by
  refine and_congr (forall₂_congr fun action haction => ?_)
    (forall₂_congr fun action haction => ?_)
  · rw [h _ (mem_sensesNeeded_of_tagAction haction)]
  · rw [h _ (mem_sensesNeeded_of_monitoredAction haction)]

/-- Later sets without the item are silent when it is left without a label. -/
theorem silentOn_of_no_set {sets' : Sense → Bool} {i : Int} {item : LiveItem}
    (h : ∀ sense ∈ sensesNeeded a.rule.toRuleParams, sets' sense = false) :
    SilentOn env a v arr sets' i item ↔ ∀ action ∈ tagActions a.rule.toRuleParams, ∀ t,
      labelIds env a arr action.1 = some t → tagLeft env a v arr i item t = false := by
  constructor
  · rintro ⟨htags, -⟩ action haction t ht
    rw [← htags action haction t ht, h _ (mem_sensesNeeded_of_tagAction haction)]
  · intro hlabels
    refine ⟨fun action haction t ht => ?_, fun action haction hset => ?_⟩
    · rw [h _ (mem_sensesNeeded_of_tagAction haction), hlabels action haction t ht]
    · rw [h _ (mem_sensesNeeded_of_monitoredAction haction)] at hset
      cases hset

/-- Later sets with an item that the first ones left alone are silent when no
tag action names it and no monitor action would change it. -/
theorem silentOn_of_left_alone (hfresh : arr.FreshTags) {sets' : Sense → Bool} {i : Int}
    {item : LiveItem}
    (h : ∀ sense ∈ sensesNeeded a.rule.toRuleParams, visitSets env a v arr i sense = false) :
    SilentOn env a v arr sets' i item ↔
      (∀ action ∈ tagActions a.rule.toRuleParams, sets' action.2 = false) ∧
        ∀ action ∈ monitoredActions a.rule.toRuleParams,
          sets' action.2 = true → item.monitored = action.1 := by
  obtain ⟨hlabels, hflag⟩ := left_of_no_set item h
  unfold SilentOn
  rw [hflag]
  refine and_congr_left fun _ =>
    ⟨fun htags action haction => ?_, fun hsets action haction t ht => ?_⟩
  · obtain ⟨t, ht⟩ := Option.isSome_iff_exists.mp (labelIds_isSome hfresh action haction)
    rw [htags action haction t ht, hlabels action haction t ht]
  · rw [hsets action haction, hlabels action haction t ht]

/-- **Silence, read off the state before the first run.** -/
theorem silentOn_iff_doneWith (hfresh : arr.FreshTags) (hbelow : SetsBelowLimit env a v arr)
    {sets' : Sense → Bool} {i : Int} {item : LiveItem}
    (hsets' : ∀ sense ∈ sensesNeeded a.rule.toRuleParams, sets' sense = true ↔
      AdmittedLater env a v arr i item ∧
        Fits a.rule.toRuleParams (env.catalog v) (actionBinds env a v arr) v.entity sense i) :
    SilentOn env a v arr sets' i item ↔ DoneWith env a v arr i item := by
  have hsets : ∀ sense ∈ sensesNeeded a.rule.toRuleParams, visitSets env a v arr i sense = true ↔
      AdmittedOnFile a.rule.toRuleParams (env.catalog v) (actionBinds env a v arr) v.entity i ∧
        Fits a.rule.toRuleParams (env.catalog v) (actionBinds env a v arr) v.entity sense i :=
    fun _ hsense => visitSets_iff hbelow hsense
  by_cases hlater : AdmittedLater env a v arr i item
  · by_cases hfile : AdmittedOnFile a.rule.toRuleParams (env.catalog v) (actionBinds env a v arr)
        v.entity i
    · have hsame : ∀ sense ∈ sensesNeeded a.rule.toRuleParams,
          sets' sense = visitSets env a v arr i sense := by
        intro sense hsense
        rw [Bool.eq_iff_iff, hsets' sense hsense, hsets sense hsense]
        exact and_congr_left fun _ => iff_of_true hlater hfile
      rw [silentOn_congr hsame, silentOn_same_iff hfresh]
      exact ⟨fun h => ⟨fun _ _ => h, fun _ hnot => absurd hlater hnot,
        fun hnot => absurd hfile hnot⟩, fun h => h.staying hfile hlater⟩
    · have hnone : ∀ sense ∈ sensesNeeded a.rule.toRuleParams,
          visitSets env a v arr i sense = false := by
        intro sense hsense
        rw [Bool.eq_false_iff, Ne, hsets sense hsense]
        exact fun h => hfile h.1
      have hentering : SilentOn env a v arr sets' i item ↔
          (∀ action ∈ tagActions a.rule.toRuleParams, ¬ Fits a.rule.toRuleParams (env.catalog v)
            (actionBinds env a v arr) v.entity action.2 i) ∧
          ∀ action ∈ monitoredActions a.rule.toRuleParams, Fits a.rule.toRuleParams
            (env.catalog v) (actionBinds env a v arr) v.entity action.2 i →
              item.monitored = action.1 := by
        rw [silentOn_of_left_alone hfresh hnone]
        refine and_congr (forall₂_congr fun action haction => ?_)
          (forall₂_congr fun action haction => ?_)
        · rw [Bool.eq_false_iff, Ne, hsets' _ (mem_sensesNeeded_of_tagAction haction)]
          exact not_congr (and_iff_right hlater)
        · rw [hsets' _ (mem_sensesNeeded_of_monitoredAction haction), and_iff_right hlater]
      rw [hentering]
      exact ⟨fun h => ⟨fun h' => absurd h' hfile, fun h' => absurd h' hfile, fun _ _ => h⟩,
        fun h => h.entering hfile hlater⟩
  · have hnone' : ∀ sense ∈ sensesNeeded a.rule.toRuleParams, sets' sense = false := by
      intro sense hsense
      rw [Bool.eq_false_iff, Ne, hsets' sense hsense]
      exact fun h => hlater h.1
    rw [silentOn_of_no_set hnone']
    refine ⟨fun h => ⟨fun _ h' => absurd h' hlater, fun _ _ => h, fun _ h' => absurd h' hlater⟩,
      fun h => ?_⟩
    by_cases hfile : AdmittedOnFile a.rule.toRuleParams (env.catalog v) (actionBinds env a v arr)
        v.entity i
    · exact h.leaving hfile hlater
    · refine (left_of_no_set item fun sense hsense => ?_).1
      rw [Bool.eq_false_iff, Ne, hsets sense hsense]
      exact fun h' => hfile h'.1

end Visit

/-! ## Two runs and a sync -/

/-- A run, the refreshes of the instances it visited, and a run after them. -/
structure TwoRuns where
  env : RunEnv
  env' : RunEnv
  automation : Automation
  automation' : Automation
  catalog : Catalog
  shelf : ArrShelf
  syncTag : Visit → WriteTag
  arr : Visit → ArrLive
  ledger : ActionLedger
  ledger' : ActionLedger
  runId : ℕ
  runId' : ℕ

namespace TwoRuns

variable (r : TwoRuns)

/-- The instances the rule visits. -/
def visits : List Visit := runVisits r.env r.automation

/-- The instances after the first run. -/
def between (v : Visit) : ArrLive :=
  ((runEnd r.env r.automation r.runId r.ledger r.arr).edited v).arr

/-- What the second run reads. -/
def synced : Catalog :=
  { r.catalog with
    warehouse := refreshVisits r.shelf r.syncTag r.between r.visits r.catalog.warehouse }

/-- The instances after the second run, with the calls it made. -/
def after (v : Visit) : Edited :=
  (runEnd r.env' r.automation' r.runId' r.ledger' r.between).edited v

/-- Two live runs of one rule, in which everything goes through, and between
which only what the first one did is different.  The warehouse may have been
out of date on flags and tags when the first one began. -/
structure Undisturbed : Prop where
  untroubled : r.env.Untroubled
  untroubled' : r.env'.Untroubled
  live : r.automation.dryRun = false
  live' : r.automation'.dryRun = false
  sameRule : r.automation'.rule = r.automation.rule
  sameKeys : r.env'.labelKey = r.env.labelKey
  sameInstances : r.env'.integrations = r.env.integrations
  reads : ∀ v, r.env.catalog v = r.catalog
  readsSynced : ∀ v, r.env'.catalog v = r.synced
  mirrored : ∀ v ∈ r.visits, MirrorsVisit r.shelf r.catalog.warehouse (r.arr v) v
  fresh : ∀ v ∈ r.visits, (r.arr v).FreshTags
  sameAired : ∀ v ∈ r.visits,
    SameAired r.catalog.warehouse (r.env.now (.select v)) (r.env'.now (.select v))
  belowLimit : ∀ v ∈ r.visits, SetsBelowLimit r.env r.automation v (r.arr v)
  belowLimit' : ∀ v ∈ r.visits, SetsBelowLimit r.env' r.automation' v (r.between v)

/-- An instance lists an item with a label. -/
def Carries (arr : ArrLive) (label : String) (i : Int) : Prop :=
  ∃ item t, arr.items.row i = some item ∧ arr.findTag (r.env.labelKey label) = some t ∧
    item.hasTag t = true

/-- **Retirement is stable**: what the first run left with a label of the rule
still has it after the second, which makes no editor call. -/
def Stable : Prop :=
  (∀ v, ∀ action ∈ tagActions r.automation.rule.toRuleParams, ∀ i,
      r.Carries (r.between v) action.1 i → r.Carries (r.after v).arr action.1 i) ∧
    ∀ v, (r.after v).calls = []

variable {r}

theorem runVisits_congr {env env' : RunEnv} {a a' : Automation} (hrule : a'.rule = a.rule)
    (hinst : env'.integrations = env.integrations) (henv : env.Untroubled)
    (henv' : env'.Untroubled) : runVisits env' a' = runVisits env a := by
  simp [runVisits, hrule, hinst, henv.fault, henv'.fault]

namespace Undisturbed

theorem between_eq (h : r.Undisturbed) {v : Visit} (hv : v ∈ r.visits) :
    r.between v = (actionsLeave r.env r.automation v (r.arr v)).arr := by
  have hvisit : v ∈ runVisits r.env r.automation := hv
  rw [between, edited_runEnd h.untroubled h.live, if_pos hvisit]

theorem after_eq (h : r.Undisturbed) (v : Visit) :
    r.after v = if v ∈ r.visits then actionsLeave r.env' r.automation' v (r.between v)
      else ⟨r.between v, []⟩ := by
  rw [after, edited_runEnd h.untroubled' h.live',
    runVisits_congr h.sameRule h.sameInstances h.untroubled h.untroubled']
  rfl

theorem freshTags_between (h : r.Undisturbed) {v : Visit} (hv : v ∈ r.visits) :
    (r.between v).FreshTags := by
  rw [h.between_eq hv]
  exact freshTags_actionsLeave h.untroubled (h.fresh v hv)

/-- The second run has no label to create. -/
theorem labelled_between (h : r.Undisturbed) {v : Visit} (hv : v ∈ r.visits) :
    (r.between v).labelled r.env'.labelKey (tagActions r.automation'.rule.toRuleParams) =
      r.between v := by
  apply ArrLive.withLabels_of_known
  intro key hkey
  rw [h.sameRule, h.sameKeys] at hkey
  rw [h.between_eq hv, findTag_actionsLeave h.untroubled (h.fresh v hv)]
  exact ArrLive.isSome_findTag_withLabels (h.fresh v hv) hkey

/-- It knows the rule's labels by the ids of the first. -/
theorem labelIds_between (h : r.Undisturbed) {v : Visit} (hv : v ∈ r.visits) :
    labelIds r.env' r.automation' (r.between v) = labelIds r.env r.automation (r.arr v) := by
  funext label
  unfold labelIds
  rw [h.labelled_between hv, h.between_eq hv, findTag_actionsLeave h.untroubled (h.fresh v hv),
    h.sameKeys]

/-- What the first run left of an item, listed and written back. -/
theorem refreshed (h : r.Undisturbed) {v : Visit} (hv : v ∈ r.visits) {i : Int}
    {item : LiveItem} (hitem : (r.arr v).items.row i = some item) :
    ∃ item', (r.between v).items.row i = some item' ∧
      item'.monitored = flagLeft r.env r.automation v (r.arr v) i item ∧
      (∀ t, item'.hasTag t = tagLeft r.env r.automation v (r.arr v) i item t) ∧
      Refreshed v i item' r.catalog.warehouse r.synced.warehouse := by
  obtain ⟨item', hrow, hflag, htags⟩ := row_actionsLeave h.untroubled (h.fresh v hv)
    (h.belowLimit v hv) hitem
  rw [← h.between_eq hv] at hrow
  have hsame : ∀ i, ((r.between v).items.row i).isSome = ((r.arr v).items.row i).isSome := by
    intro i
    rw [h.between_eq hv]
    exact isSome_row_actionsLeave h.untroubled (h.fresh v hv) i
  have hnodup : r.visits.Nodup := nodup_runVisits r.env r.automation
  exact ⟨item', hrow, hflag, htags, refreshed_refreshVisits r.shelf r.syncTag r.between hnodup hv
    (h.mirrored v hv) hsame hrow⟩

/-- **The sets of the second run**, read off the state before the first. -/
theorem sets_second (h : r.Undisturbed) {v : Visit} (hv : v ∈ r.visits) {i : Int}
    {item : LiveItem} (hitem : (r.arr v).items.row i = some item) {sense : Sense}
    (hsense : sense ∈ sensesNeeded r.automation.rule.toRuleParams) :
    visitSets r.env' r.automation' v (r.between v) i sense = true ↔
      AdmittedLater r.env r.automation v (r.arr v) i item ∧
        Fits r.automation.rule.toRuleParams (r.env.catalog v)
          (actionBinds r.env r.automation v (r.arr v)) v.entity sense i := by
  obtain ⟨item', -, hflag, htags, hrefreshed⟩ := h.refreshed hv hitem
  have hsense' : sense ∈ sensesNeeded r.automation'.rule.toRuleParams := by
    rwa [h.sameRule]
  have hids : (actionBinds r.env' r.automation' v (r.between v)).tagIds =
      ((r.arr v).labelled r.env.labelKey (tagActions r.automation.rule.toRuleParams)).tagIds
        (r.automation.rule.scope.tagsAny.map r.env.labelKey) := by
    have hfind : (r.between v).findTag = ((r.arr v).labelled r.env.labelKey
        (tagActions r.automation.rule.toRuleParams)).findTag := by
      funext key
      rw [h.between_eq hv, findTag_actionsLeave h.untroubled (h.fresh v hv)]
    simp only [actionBinds, ArrLive.tagIds, hfind, h.sameRule, h.sameKeys]
  have hadmits : AdmittedOnFile r.automation'.rule.toRuleParams (r.env'.catalog v)
      (actionBinds r.env' r.automation' v (r.between v)) v.entity i ↔
      AdmittedLater r.env r.automation v (r.arr v) i item := by
    have hfile := hrefreshed.flagsOnFile
    have htags' : item'.hasTag = tagLeft r.env r.automation v (r.arr v) i item := funext htags
    unfold AdmittedOnFile AdmittedLater
    rw [hids, h.readsSynced, h.sameRule, show (actionBinds r.env' r.automation' v
      (r.between v)).instanceName = v.instanceName from rfl, hfile]
    simp only [Option.some.injEq, exists_eq_left', hflag, htags']
  obtain ⟨hepisode, hepisodeFile, hmovieFile⟩ := refreshVisits_episodes r.shelf r.syncTag
    r.between (w := r.catalog.warehouse) r.visits
  have hfits : Fits r.automation'.rule.toRuleParams (r.env'.catalog v)
      (actionBinds r.env' r.automation' v (r.between v)) v.entity sense i ↔
      Fits r.automation.rule.toRuleParams (r.env.catalog v)
        (actionBinds r.env r.automation v (r.arr v)) v.entity sense i := by
    rw [h.readsSynced, h.reads, h.sameRule]
    exact hrefreshed.fits_iff rfl rfl hepisode hepisodeFile hmovieFile rfl rfl
      (h.sameAired v hv) sense
  rw [visitSets_iff (h.belowLimit' v hv) hsense', hadmits, hfits]

/-- **The second run makes no call at an instance exactly when the rule was done
with each of its items.** -/
theorem silent_iff (h : r.Undisturbed) {v : Visit} (hv : v ∈ r.visits) :
    (actionsLeave r.env' r.automation' v (r.between v)).calls = [] ↔
      ∀ i item, (r.arr v).items.row i = some item →
        DoneWith r.env r.automation v (r.arr v) i item := by
  rw [calls_actionsLeave_eq_nil_iff h.untroubled' (h.freshTags_between hv) (h.belowLimit' v hv),
    h.sameRule, h.labelIds_between hv]
  have hitem : ∀ i item, (r.arr v).items.row i = some item →
      ((∀ item', (r.between v).items.row i = some item' →
        (∀ action ∈ tagActions r.automation.rule.toRuleParams, ∀ t,
          labelIds r.env r.automation (r.arr v) action.1 = some t →
            visitSets r.env' r.automation' v (r.between v) i action.2 = item'.hasTag t) ∧
        ∀ action ∈ monitoredActions r.automation.rule.toRuleParams,
          visitSets r.env' r.automation' v (r.between v) i action.2 = true →
            item'.monitored = action.1) ↔
        DoneWith r.env r.automation v (r.arr v) i item) := by
    intro i item hitem
    obtain ⟨item', hrow, hflag, htags, -⟩ := h.refreshed hv hitem
    rw [← silentOn_iff_doneWith (h.fresh v hv) (h.belowLimit v hv)
      fun sense hsense => h.sets_second hv hitem hsense, hrow]
    simp only [Option.some.injEq, forall_eq', hflag, htags, SilentOn]
  constructor
  · intro hsilent i item hrow
    exact (hitem i item hrow).mp fun item' hrow' => hsilent i item' hrow'
  · intro hdone i item' hrow'
    have hlisted : ((r.arr v).items.row i).isSome = true := by
      rw [← isSome_row_actionsLeave h.untroubled (h.fresh v hv), ← h.between_eq hv, hrow']
      rfl
    obtain ⟨item, hrow⟩ := Option.isSome_iff_exists.mp hlisted
    exact (hitem i item hrow).mpr (hdone i item hrow) item' hrow'

/-- A visit without calls leaves the instance as it was. -/
theorem after_of_silent (h : r.Undisturbed) {v : Visit} (hv : v ∈ r.visits)
    (hsilent : (actionsLeave r.env' r.automation' v (r.between v)).calls = []) :
    (actionsLeave r.env' r.automation' v (r.between v)).arr = r.between v := by
  rw [actionsLeave_eq h.untroubled' (h.freshTags_between hv), h.labelled_between hv] at hsilent ⊢
  obtain ⟨htags, hflags⟩ := List.append_eq_nil_iff.mp hsilent
  simp only [htags] at hflags ⊢
  rw [hflags]
  rfl

/-- A stable retirement is settled with every item. -/
theorem doneWith_of_stable (h : r.Undisturbed) (hstable : r.Stable) :
    ∀ v ∈ r.visits, ∀ i item, (r.arr v).items.row i = some item →
      DoneWith r.env r.automation v (r.arr v) i item := by
  intro v hv
  have hcalls := hstable.2 v
  rw [h.after_eq, if_pos hv] at hcalls
  exact (h.silent_iff hv).mp hcalls

end Undisturbed

/-- **A retirement is stable exactly when one run settles every item.** -/
theorem retirement_stable_iff (h : r.Undisturbed) :
    r.Stable ↔ ∀ v ∈ r.visits, ∀ i item, (r.arr v).items.row i = some item →
      DoneWith r.env r.automation v (r.arr v) i item := by
  constructor
  · exact h.doneWith_of_stable
  · intro hdone
    refine ⟨fun v action haction i hcarries => ?_, fun v => ?_⟩
    · rw [h.after_eq]
      by_cases hv : v ∈ r.visits
      · rw [if_pos hv, h.after_of_silent hv ((h.silent_iff hv).mpr (hdone v hv))]
        exact hcarries
      · rw [if_neg hv]
        exact hcarries
    · rw [h.after_eq]
      by_cases hv : v ∈ r.visits
      · rw [if_pos hv]
        exact (h.silent_iff hv).mpr (hdone v hv)
      · rw [if_neg hv]

/-- A rule whose scope reads neither the flag nor the tags settles every item
that its actions agree on. -/
theorem doneWith_of_unflagged {env : RunEnv} {a : Automation} {v : Visit} {arr : ArrLive} {i : Int}
    {item : LiveItem} (hmonitored : a.rule.scope.monitoredOnly = false)
    (htags : a.rule.scope.tagsAny = [])
    (hfile : (flagsOnFile (env.catalog v).warehouse v.entity ⟨i, v.instanceName⟩).isSome = true)
    (hagree : ActionsAgree env a v arr i) : DoneWith env a v arr i item := by
  have hadmits : ∀ tagIds monitored hasTag,
      a.rule.scope.Admits tagIds monitored hasTag := by
    intro tagIds monitored hasTag
    exact ⟨fun h => by simp [hmonitored] at h, fun h => absurd htags h⟩
  refine ⟨fun _ _ => hagree, fun _ hnot => absurd (hadmits _ _ _) hnot, fun hnot => ?_⟩
  obtain ⟨flags, hflags⟩ := Option.isSome_iff_exists.mp hfile
  exact absurd ⟨flags, hflags, hadmits _ _ _⟩ hnot

/-- **No retirement lasts** under `monitored_only`: a monitored item in the set
is tagged and unmonitored by the first run, and loses the tag to the second. -/
theorem not_stable_of_retired (h : r.Undisturbed) {label : String} {sense : Sense}
    (htags : tagActions r.automation.rule.toRuleParams = [(label, sense)])
    (hflags : monitoredActions r.automation.rule.toRuleParams = [(false, sense)])
    (hscope : r.automation.rule.scope.monitoredOnly = true) {v : Visit} (hv : v ∈ r.visits)
    {i : Int} {item : LiveItem} (hitem : (r.arr v).items.row i = some item)
    (hset : visitSets r.env r.automation v (r.arr v) i sense = true) : ¬ r.Stable := by
  intro hstable
  have hdone := h.doneWith_of_stable hstable v hv i item hitem
  have hneeded : sense ∈ sensesNeeded r.automation.rule.toRuleParams := by
    simp [sensesNeeded, htags]
  obtain ⟨hfile, -⟩ := (visitSets_iff (h.belowLimit v hv) hneeded).mp hset
  have hflag : flagLeft r.env r.automation v (r.arr v) i item = false := by
    refine settle_of_forall ?_ fun wish hwish => ?_
    · simp [monitoredWishes, hflags, hset]
    · simpa [monitoredWishes, hflags, hset] using hwish
  have hlater : ¬ AdmittedLater r.env r.automation v (r.arr v) i item := by
    rintro ⟨hmonitored, -⟩
    rw [hflag] at hmonitored
    exact absurd (hmonitored hscope) Bool.false_ne_true
  have haction : (label, sense) ∈ tagActions r.automation.rule.toRuleParams := by simp [htags]
  obtain ⟨t, ht⟩ := Option.isSome_iff_exists.mp (labelIds_isSome (h.fresh v hv) _ haction)
  have hleft := hdone.leaving hfile hlater _ haction t ht
  have htagged : tagLeft r.env r.automation v (r.arr v) i item t = true := by
    refine settle_of_forall ?_ fun wish hwish => ?_
    · simp [tagWishes, htags, ht]
    · simpa [tagWishes, htags, ht, hset] using hwish
  rw [htagged] at hleft
  cases hleft

/-! ## A satisfied movie -/

/-- A rule in charge of a library. -/
def retirer (rule : AcceptedRule) : Automation where
  id := 1
  rule := rule
  dryRun := false
  budgetPerRun := 10
  cooldownDays := 7
  dubStatusSeen := fun _ => none
  budgetBounds := defaultBudget_bounds
  cooldownBounds := defaultCooldown_bounds

/-- A monitored movie, with an English file of 1080 lines. -/
def satisfiedMovie : MoviePayload := { id := 1, monitored := some true, hasFile := some true }

/-- The columns of its file. -/
def satisfyingMedia : MediaCols where
  path := none
  sizeBytes := none
  quality := none
  audioLanguages := ["english"]
  subtitleLanguages := []
  audioCodec := none
  audioChannels := none
  videoCodec := none
  videoResolution := some 1080
  payload :=
    { id := some 1, languages := [{ name := some "English" }]
      quality := { resolution := some 1080 } }

/-- They are what its upsert binds. -/
example : mediaCols String.toLower satisfyingMedia.payload = satisfyingMedia := by decide +kernel

/-- The warehouse after a sync of that movie. -/
def satisfiedLibrary : Catalog where
  warehouse :=
    { Warehouse.empty with
      movie := upsertMovies KeyedTable.empty "default" ⟨1, "full", String.toLower⟩ [satisfiedMovie]
      movieFile := KeyedTable.empty.upsertLive ⟨1, "default"⟩ ⟨1, satisfyingMedia, "full", 1⟩ id }
  mal := ⟨KeyedTable.empty, KeyedTable.empty⟩
  lower := .ascii

/-- Radarr, which lists it. -/
def satisfiedRadarr : ArrLive :=
  { ArrLive.empty with items := KeyedTable.empty.upsert 1 ⟨[], true⟩ id }

/-- Two runs of a rule over it, with nothing else going on. -/
def retired (rule : AcceptedRule) : TwoRuns :=
  let env := quietRadarr satisfiedLibrary
  let shelf : ArrShelf := ⟨fun _ => [satisfiedMovie], fun _ => []⟩
  let between := fun v => ((runEnd env (retirer rule) 1 KeyedTable.empty fun _ =>
    satisfiedRadarr).edited v).arr
  { env := env
    env' := quietRadarr
      { satisfiedLibrary with
        warehouse := refreshVisits shelf (fun _ => ⟨2, "incremental", String.toLower⟩) between
          (runVisits env (retirer rule)) satisfiedLibrary.warehouse }
    automation := retirer rule
    automation' := retirer rule
    catalog := satisfiedLibrary
    shelf := shelf
    syncTag := fun _ => ⟨2, "incremental", String.toLower⟩
    arr := fun _ => satisfiedRadarr
    ledger := KeyedTable.empty
    ledger' := KeyedTable.empty
    runId := 1
    runId' := 2 }

instance (env : RunEnv) (a : Automation) (v : Visit) (arr : ArrLive) :
    Decidable (SetsBelowLimit env a v arr) := by
  unfold SetsBelowLimit
  infer_instance

theorem quietRadarr_untroubled (c : Catalog) : (quietRadarr c).Untroubled :=
  ⟨fun _ => rfl, fun _ _ => rfl, fun _ => rfl, fun _ => rfl⟩

theorem row_satisfiedRadarr {i : Int} {item : LiveItem}
    (h : satisfiedRadarr.items.row i = some item) : i = 1 ∧ item = ⟨[], true⟩ := by
  by_cases hi : i = 1
  · subst hi
    exact ⟨rfl, (Option.some.inj h).symm⟩
  · simp [satisfiedRadarr, KeyedTable.row_upsert, hi] at h

theorem retired_undisturbed (rule : AcceptedRule)
    (hvisits : (retired rule).visits = [⟨.movie, "default"⟩])
    (hbelow : SetsBelowLimit (retired rule).env (retirer rule) ⟨.movie, "default"⟩
      satisfiedRadarr)
    (hbelow' : SetsBelowLimit (retired rule).env' (retirer rule) ⟨.movie, "default"⟩
      ((retired rule).between ⟨.movie, "default"⟩)) : (retired rule).Undisturbed where
  untroubled := quietRadarr_untroubled _
  untroubled' := quietRadarr_untroubled _
  live := rfl
  live' := rfl
  sameRule := rfl
  sameKeys := rfl
  sameInstances := rfl
  reads := fun _ => rfl
  readsSynced := fun _ => rfl
  mirrored := by
    intro v hv
    rw [hvisits, List.mem_singleton] at hv
    subst hv
    refine ⟨List.nodup_singleton _, fun i item hitem => ?_⟩
    obtain ⟨rfl, rfl⟩ := row_satisfiedRadarr hitem
    exact ⟨by decide, satisfiedMovie, List.mem_singleton_self _, rfl, ⟨[], true⟩,
      ⟨1, "full", String.toLower⟩, rfl⟩
  fresh := fun _ _ _ _ => rfl
  sameAired := fun _ _ _ _ _ _ _ => Iff.rfl
  belowLimit := by
    intro v hv
    rw [hvisits, List.mem_singleton] at hv
    subst hv
    exact hbelow
  belowLimit' := by
    intro v hv
    rw [hvisits, List.mem_singleton] at hv
    subst hv
    exact hbelow'

/-- The movie retirement template unmonitors the movie and tags it; once that is
synced the movie is out of scope, and the tag comes off. -/
theorem retired_movie_loses_tag :
    ¬ ∀ r : TwoRuns, r.Undisturbed → tagActions r.automation.rule.toRuleParams ≠ [] →
      monitoredActions r.automation.rule.toRuleParams ≠ [] → r.Stable := by
  intro h
  have hstable := h (retired movieDoneUnmonitor)
    (retired_undisturbed movieDoneUnmonitor (by decide) (by decide +kernel) (by decide +kernel))
    (by decide) (by decide)
  have hcall : ((retired movieDoneUnmonitor).after ⟨.movie, "default"⟩).calls =
      [.removeTag [1] 1] := by
    decide +kernel
  rw [hstable.2] at hcall
  cases hcall

/-- The template, over unmonitored movies too. -/
def movieDoneAnyway : AcceptedRule :=
  { movieDoneUnmonitor with scope := { media := .movies, monitoredOnly := false } }

/-- With that the movie keeps its tag. -/
theorem retired_movie_keeps_tag : (retired movieDoneAnyway).Stable := by
  refine (retirement_stable_iff (retired_undisturbed movieDoneAnyway (by decide)
    (by decide +kernel) (by decide +kernel))).mpr ?_
  intro v hv i item hitem
  obtain rfl : v = ⟨.movie, "default"⟩ := by
    have hvisits : (retired movieDoneAnyway).visits = [⟨.movie, "default"⟩] := by decide
    rwa [hvisits, List.mem_singleton] at hv
  obtain ⟨rfl, rfl⟩ := row_satisfiedRadarr hitem
  refine doneWith_of_unflagged rfl rfl (by decide +kernel) ⟨?_, ?_⟩
  · decide +kernel
  · decide +kernel

end TwoRuns

end Nebularr
