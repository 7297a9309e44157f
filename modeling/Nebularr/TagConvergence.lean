import Nebularr.EditorEffects

/-!
# Where tag reconciliation ends

A tag action makes its label sit on the items of its set and on no others.
Each is right about the listing it reads, but all the tag actions of a rule
read the same one, taken before the first of them.  Two actions whose labels
are one tag on the instance undo each other unless their sets have the same
items there; nothing else stands in the way.
-/

namespace Nebularr

section Converge

variable (key : String → String) (entity : Entity) (rowSets : RowSets) (params : RuleParams)

/-- The instance after the tag actions of a rule, when no call breaks off. -/
def afterTagActions (s : Edited) : Edited :=
  (applyTagActions key entity rowSets (fun _ => none) params s).state

/-- The tag actions have arrived where they wanted to go. -/
structure TagsConverged (s : Edited) : Prop where
  /-- Each label sits on the items of its action's set that the instance has. -/
  placed : ∀ action ∈ tagActions params, ∃ tag,
    (afterTagActions key entity rowSets params s).arr.findTag (key action.1) = some tag ∧
      ∀ i item, (afterTagActions key entity rowSets params s).arr.items.row i = some item →
        (tag ∈ item.tags ↔ i ∈ targetIds entity action.2 (rowSets action.2))
  /-- The instance has the items it had, and on them every other tag. -/
  others : ∀ i, ((afterTagActions key entity rowSets params s).arr.items.row i).isSome =
      (s.arr.items.row i).isSome ∧
    ∀ old new, s.arr.items.row i = some old →
      (afterTagActions key entity rowSets params s).arr.items.row i = some new →
        new.monitored = old.monitored ∧
          ∀ t, (∀ action ∈ tagActions params,
              (afterTagActions key entity rowSets params s).arr.findTag (key action.1) ≠ some t) →
            (t ∈ new.tags ↔ t ∈ old.tags)
  /-- A second run finds nothing to do. -/
  quiet : (afterTagActions key entity rowSets params
      (afterTagActions key entity rowSets params s)).calls =
    (afterTagActions key entity rowSets params s).calls

/-- Actions whose labels are one tag have sets with the same live items. -/
def LabelsAgree (arr : ArrLive) : Prop :=
  ∀ action ∈ tagActions params, ∀ action' ∈ tagActions params, key action.1 = key action'.1 →
    ∀ i, (arr.items.row i).isSome = true →
      inSet entity rowSets i action.2 = inSet entity rowSets i action'.2

variable {key entity rowSets params} {s : Edited}

/-- The tags of the rule's labels, from its first run on. -/
private theorem findTag_after (hfresh : s.arr.FreshTags) (label : String) :
    (afterTagActions key entity rowSets params s).arr.findTag label =
      (s.arr.labelled key (tagActions params)).findTag label := by
  rw [afterTagActions, (applyTagActions_untorn key entity rowSets params hfresh).2]
  exact ArrLive.findTag_edits _ _ _

private theorem freshTags_after (hfresh : s.arr.FreshTags) :
    (afterTagActions key entity rowSets params s).arr.FreshTags := by
  rw [afterTagActions, (applyTagActions_untorn key entity rowSets params hfresh).2]
  exact (hfresh.labelled key (tagActions params)).edits _

/-- Every label of the rule is known after its first run. -/
private theorem exists_findTag_after (hfresh : s.arr.FreshTags) {action : String × Sense}
    (haction : action ∈ tagActions params) : ∃ tag,
      (afterTagActions key entity rowSets params s).arr.findTag (key action.1) = some tag := by
  rw [findTag_after hfresh]
  exact Option.isSome_iff_exists.mp
    (ArrLive.isSome_findTag_withLabels hfresh (List.mem_map_of_mem haction))

variable (key entity rowSets params) in
/-- Tag actions neither add an item nor take one away. -/
private theorem isSome_row_after (hfresh : s.arr.FreshTags) (i : Int) :
    ((afterTagActions key entity rowSets params s).arr.items.row i).isSome =
      (s.arr.items.row i).isSome := by
  rw [afterTagActions, (applyTagActions_untorn key entity rowSets params hfresh).2,
    ArrLive.row_edits, ArrLive.items_labelled]
  exact Option.isSome_map

/-- **What the actions leave on an item**: each tag by the wishes for it. -/
private theorem item_after (hfresh : s.arr.FreshTags)
    (hwhole : ∀ action ∈ tagActions params, (rowSets action.2).length < searchlessLimit) {i : Int}
    {old new : LiveItem} (hold : s.arr.items.row i = some old)
    (hnew : (afterTagActions key entity rowSets params s).arr.items.row i = some new) :
    new.monitored = old.monitored ∧
      ∀ t, new.hasTag t = settle (old.hasTag t) (tagWishes
        (fun label => (afterTagActions key entity rowSets params s).arr.findTag (key label))
        (inSet entity rowSets i) (tagActions params) t) := by
  have hknown : ∀ action ∈ tagActions params,
      ((s.arr.labelled key (tagActions params)).findTag (key action.1)).isSome = true :=
    fun action haction => ArrLive.isSome_findTag_withLabels hfresh (List.mem_map_of_mem haction)
  simp only [findTag_after hfresh]
  rw [afterTagActions, (applyTagActions_untorn key entity rowSets params hfresh).2,
    ArrLive.row_edits, ArrLive.items_labelled, hold, Option.map_some, Option.some.injEq] at hnew
  subst hnew
  exact edited_tagCalls entity rowSets _ _ hold hwhole hknown old

/-- Where the labels agree, each tag of the rule settles where its action
wants it. -/
private theorem hasTag_after (hfresh : s.arr.FreshTags)
    (hwhole : ∀ action ∈ tagActions params, (rowSets action.2).length < searchlessLimit)
    (hagree : LabelsAgree key entity rowSets params s.arr) {action : String × Sense}
    (haction : action ∈ tagActions params) {tag : Int}
    (htag : (afterTagActions key entity rowSets params s).arr.findTag (key action.1) = some tag)
    {i : Int} {new : LiveItem}
    (hnew : (afterTagActions key entity rowSets params s).arr.items.row i = some new) :
    new.hasTag tag = inSet entity rowSets i action.2 := by
  have hlive := isSome_row_after key entity rowSets params hfresh i
  rw [hnew, Option.isSome_some, eq_comm] at hlive
  obtain ⟨old, hold⟩ := Option.isSome_iff_exists.mp hlive
  rw [(item_after hfresh hwhole hold hnew).2]
  refine settle_of_forall (List.ne_nil_of_mem (mem_tagWishes.mpr ⟨action, haction, htag, rfl⟩))
    fun wish hwish => ?_
  obtain ⟨action', haction', htag', rfl⟩ := mem_tagWishes.mp hwish
  exact hagree action' haction' action haction (ArrLive.findTag_inj htag' htag) i hlive

/-- A run that finds every label in its place makes no call. -/
private theorem calls_of_placed (hfresh : s.arr.FreshTags)
    (hwhole : ∀ action ∈ tagActions params, (rowSets action.2).length < searchlessLimit)
    (hplaced : ∀ action ∈ tagActions params, ∃ tag, s.arr.findTag (key action.1) = some tag ∧
      ∀ i item, s.arr.items.row i = some item → inSet entity rowSets i action.2 = item.hasTag tag) :
    (afterTagActions key entity rowSets params s).calls = s.calls := by
  have hlabelled : s.arr.labelled key (tagActions params) = s.arr := by
    apply ArrLive.withLabels_of_known
    intro label hlabel
    obtain ⟨action, haction, rfl⟩ := List.mem_map.mp hlabel
    obtain ⟨tag, htag, -⟩ := hplaced action haction
    rw [htag]
    rfl
  rw [afterTagActions, (applyTagActions_untorn key entity rowSets params hfresh).2, hlabelled]
  refine List.append_right_eq_self.mpr (List.flatMap_eq_nil_iff.mpr fun action haction => ?_)
  obtain ⟨tag, htag, hsets⟩ := hplaced action haction
  simp only [htag, Option.getD_some]
  exact (tagEdits_eq_nil_iff (hwhole action haction)).mpr hsets

variable (key entity rowSets s) in
/-- **Tag reconciliation converges exactly when labels that are one tag have
one set.** -/
theorem tagsConverged_iff (rule : AcceptedRule) (hfresh : s.arr.FreshTags)
    (hwhole : ∀ action ∈ tagActions rule.toRuleParams,
      (rowSets action.2).length < searchlessLimit) :
    TagsConverged key entity rowSets rule.toRuleParams s ↔
      LabelsAgree key entity rowSets rule.toRuleParams s.arr := by
  constructor
  · intro hconverged action haction action' haction' hkey i hlive
    obtain ⟨tag, htag, hplaced⟩ := hconverged.placed action haction
    obtain ⟨tag', htag', hplaced'⟩ := hconverged.placed action' haction'
    obtain rfl : tag = tag' := by
      rw [hkey, htag'] at htag
      exact (Option.some.inj htag).symm
    have hstays := isSome_row_after key entity rowSets rule.toRuleParams hfresh i
    rw [hlive] at hstays
    obtain ⟨new, hnew⟩ := Option.isSome_iff_exists.mp hstays
    rw [inSet, inSet, decide_eq_decide, ← hplaced i new hnew, ← hplaced' i new hnew]
  · intro hagree
    refine ⟨fun action haction => ?_, fun i => ?_, ?_⟩
    · obtain ⟨tag, htag⟩ := exists_findTag_after hfresh haction
      refine ⟨tag, htag, fun i item hitem => ?_⟩
      have hsettled := hasTag_after hfresh hwhole hagree haction htag hitem
      rwa [LiveItem.hasTag, inSet, decide_eq_decide] at hsettled
    · refine ⟨isSome_row_after key entity rowSets rule.toRuleParams hfresh i,
        fun old new hold hnew => ?_⟩
      obtain ⟨hmonitored, htags⟩ := item_after hfresh hwhole hold hnew
      refine ⟨hmonitored, fun t hother => ?_⟩
      -- nobody wishes anything of a tag that is no action's
      have hnone : tagWishes
          (fun label => (afterTagActions key entity rowSets rule.toRuleParams s).arr.findTag
            (key label)) (inSet entity rowSets i) (tagActions rule.toRuleParams) t = [] := by
        rw [List.eq_nil_iff_forall_not_mem]
        intro wish hwish
        obtain ⟨action, haction, htag, -⟩ := mem_tagWishes.mp hwish
        exact hother action haction htag
      have hsame := htags t
      rw [hnone, settle_nil] at hsame
      simpa [LiveItem.hasTag] using hsame
    · apply calls_of_placed (freshTags_after hfresh) hwhole
      intro action haction
      obtain ⟨tag, htag⟩ := exists_findTag_after hfresh haction
      exact ⟨tag, htag, fun i item hitem =>
        (hasTag_after hfresh hwhole hagree haction htag hitem).symm⟩

end Converge

/-- An instance that lists movie 5, untagged. -/
def listedMovie : ArrLive :=
  ⟨KeyedTable.empty, KeyedTable.empty.upsert 5 ⟨[], true⟩ id, 1, .appending⟩

/-- Movie 5 conforms, and nothing else was selected. -/
def movieConforms : RowSets
  | .conforming => [{ sourceId := 5, title := "a" }]
  | .nonConforming => []

private theorem freshTags_listedMovie : listedMovie.FreshTags := fun id _ => KeyedTable.row_empty id

/-- A rule with one label has nothing to disagree about. -/
theorem tagsConverged_movieDone :
    TagsConverged id .movie movieConforms movieDoneUnmonitor.toRuleParams ⟨listedMovie, []⟩ := by
  have hone : tagActions movieDoneUnmonitor.toRuleParams = [("retired-complete", .conforming)] :=
    rfl
  refine (tagsConverged_iff id .movie movieConforms ⟨listedMovie, []⟩ movieDoneUnmonitor
    freshTags_listedMovie ?_).mpr ?_
  · rw [hone]
    decide
  · intro action haction action' haction' _ i _
    rw [hone, List.mem_singleton] at haction haction'
    rw [haction, haction']

/-- One label for the movies that are done and for those that are not. -/
def labelsEveryMovie : AcceptedRule where
  scope := { media := .movies }
  actions := [.tag "audited" .conforming, .tag "audited" .nonConforming]
  actsSomehow := by simp
  upgradeNamesTarget := by simp [RuleParams.wantsUpgrade]
  newDubIsGated := defaultOptions_gated
  statusOfSeries := by simp
  tagsAreLabelled := by
    intro label sense h
    obtain rfl : label = "audited" := by
      simp only [List.mem_cons, RuleAction.tag.injEq, List.not_mem_nil, or_false] at h
      rcases h with h | h
      · exact h.1
      · exact h.1
    exact ⟨'a', by simp, by decide⟩

/-- The first action labels movie 5, and the second, which wants the label on
no item, does not see it. -/
theorem not_tagsConverged_oppositeSenses :
    ¬ TagsConverged id .movie movieConforms labelsEveryMovie.toRuleParams ⟨listedMovie, []⟩ := by
  intro h
  obtain ⟨tag, htag, hplaced⟩ := h.placed ("audited", .nonConforming) (by decide)
  have hid : (afterTagActions id .movie movieConforms labelsEveryMovie.toRuleParams
      ⟨listedMovie, []⟩).arr.findTag "audited" = some 1 := by decide
  have hrow : (afterTagActions id .movie movieConforms labelsEveryMovie.toRuleParams
      ⟨listedMovie, []⟩).arr.items.row 5 = some ⟨[1], true⟩ := by decide
  obtain rfl := Option.some.inj (htag.symm.trans hid)
  exact absurd ((hplaced 5 _ hrow).mp (by decide)) (by decide)

end Nebularr
