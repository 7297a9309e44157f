import Mathlib.Data.Finset.Card
import Mathlib.Data.Finset.Basic
import Nebularr.EditorEffects
import Nebularr.InsertSelect

/-!
# The dry-run preview

`_preview_tag_actions` and `_preview_monitored_actions` count what a live run
would do, without a single editor call.  They repeat the diffs of the apply
functions with three differences.  The apply spares every removal once a set has
reached `SEARCHLESS_LIMIT`; the preview counts them.  For a label the instance
does not have, the preview counts the whole set, although an item that has left
the instance cannot be tagged.  And it writes its counts into a dict, under the
label or the set, so that of several actions with one of these it keeps the last.

The two agree, entry by entry, exactly when what is counted too much makes up for
what is not counted.
-/

namespace Nebularr

/-- `inst_details["would_tag:…"]`. -/
structure TagPreview where
  added : ℕ
  removed : ℕ
  addedSample : List Int
  removedSample : List Int
deriving DecidableEq, Repr

/-- `inst_details["would_monitor:…"]`. -/
structure MonitorPreview where
  changed : ℕ
  sample : List Int
deriving DecidableEq, Repr

/-- `by_label`: of several tags with one key the dict keeps the last. -/
def ArrLive.byLabel (arr : ArrLive) (key : String) : Option Int :=
  (arr.labels.rows.entries.reverse.find? fun row => row.2 = key).map Sigma.fst

section Preview

variable (key : String → String) (entity : Entity) (rowSets : RowSets)

/-- The ids one action of `_preview_tag_actions` would add to and remove from. -/
def previewTagIds (arr : ArrLive) (action : String × Sense) : List Int × List Int :=
  let desired := targetIds entity action.2 (rowSets action.2)
  match arr.byLabel (key action.1) with
  | none => (desired.dedup.insertionSort (· ≤ ·), [])
  | some tagId =>
      let add := arr.items.selectWhere fun id item => id ∈ desired && tagId ∉ item.tags
      let remove := arr.items.selectWhere fun id item => id ∉ desired && tagId ∈ item.tags
      ((add.map Prod.fst).insertionSort (· ≤ ·), (remove.map Prod.fst).insertionSort (· ≤ ·))

/-- The body of the loop of `_preview_tag_actions`. -/
def previewTagAction (arr : ArrLive) (action : String × Sense) : TagPreview :=
  let ids := previewTagIds key entity rowSets arr action
  ⟨ids.1.length, ids.2.length, ids.1.take 20, ids.2.take 20⟩

/-- `_preview_tag_actions`: the entries it leaves, by label. -/
def previewTagActions (params : RuleParams) (arr : ArrLive) : KeyedTable String TagPreview :=
  KeyedTable.empty.putEach ((tagActions params).map fun action =>
    (action.1, previewTagAction key entity rowSets arr action))

/-- The body of the loop of `_preview_monitored_actions`. -/
def previewMonitoredAction (live : KeyedTable Int LiveItem) (action : Bool × Sense) :
    MonitorPreview :=
  let changed := ((targetIds entity action.2 (rowSets action.2)).dedup.filter fun id =>
    (live.row id).any fun item => item.monitored != action.1).insertionSort (· ≤ ·)
  ⟨changed.length, changed.take 20⟩

/-- `_preview_monitored_actions`: the entries it leaves, by set. -/
def previewMonitoredActions (params : RuleParams) (arr : ArrLive) :
    KeyedTable Sense MonitorPreview :=
  KeyedTable.empty.putEach ((monitoredActions params).map fun action =>
    (action.2, previewMonitoredAction entity rowSets arr.items action))

end Preview

/-! ## What a live run does, entry by entry -/

namespace Edit

/-- The items a call adds a tag to. -/
def added : Edit → List Int
  | .addTag ids _ => ids
  | _ => []

/-- The items a call removes a tag from. -/
def removed : Edit → List Int
  | .removeTag ids _ => ids
  | _ => []

/-- The items a call sets the flag of. -/
def changed : Edit → List Int
  | .setMonitored ids _ => ids
  | _ => []

end Edit

/-- The items that some calls name. -/
def namedItems (named : Edit → List Int) (calls : List Edit) : Finset Int :=
  (calls.flatMap named).toFinset

/-- The calls of each action of a run. -/
def callsOfEach {χ : Type} (body : χ → Edited → Edited × Option String) :
    List χ → Edited → List (List Edit)
  | [], _ => []
  | action :: rest, s =>
      let s' := (body action s).1
      s'.calls.drop s.calls.length :: callsOfEach body rest s'

/-- Together they are the calls of the run. -/
theorem flatten_callsOfEach {χ : Type} {step : χ → Edited → Edited}
    (hcalls : ∀ action s, s.calls <+: (step action s).calls) (actions : List χ) :
    ∀ s : Edited, (actions.foldl (fun s action => step action s) s).calls =
      s.calls ++ (callsOfEach (fun action s => (step action s, none)) actions s).flatten := by
  induction actions with
  | nil => simp [callsOfEach]
  | cons action rest ih =>
      intro s
      obtain ⟨made, hmade⟩ := hcalls action s
      rw [List.foldl_cons, ih]
      simp only [callsOfEach, List.flatten_cons]
      rw [← hmade, List.drop_left, List.append_assoc]

section Runs

variable (key : String → String) (entity : Entity) (rowSets : RowSets) (params : RuleParams)
  (s : Edited)

/-- The calls of each tag action of a run in which none breaks off. -/
def tagCallsOfEach : List (List Edit) :=
  callsOfEach (applyTagAction key entity rowSets (fun _ => none) s.arr.items 0)
    (tagActions params) s

/-- The calls of each monitor action, which come after the tag actions. -/
def monitoredCallsOfEach : List (List Edit) :=
  let tagged := (applyTagActions key entity rowSets (fun _ => none) params s).state
  callsOfEach (applyMonitoredAction entity rowSets (fun _ => none) tagged.arr.items 0)
    (monitoredActions params) tagged

/-- The calls of the tag actions with one label. -/
def tagCallsFor (label : String) : List Edit :=
  ((tagActions params).zip (tagCallsOfEach key entity rowSets params s)).flatMap fun made =>
    if made.1.1 = label then made.2 else []

/-- The calls of the monitor actions on one set. -/
def monitoredCallsFor (sense : Sense) : List Edit :=
  ((monitoredActions params).zip
    (monitoredCallsOfEach key entity rowSets params s)).flatMap fun made =>
    if made.1.2 = sense then made.2 else []

/-- **They are the calls of the run**, cut at the actions. -/
theorem calls_eq_flatten :
    let tagged := (applyTagActions key entity rowSets (fun _ => none) params s).state
    (applyMonitoredActions entity rowSets (fun _ => none) params tagged).state.calls =
      s.calls ++ (tagCallsOfEach key entity rowSets params s).flatten ++
        (monitoredCallsOfEach key entity rowSets params s).flatten := by
  intro tagged
  have htagged : tagged.calls =
      s.calls ++ (tagCallsOfEach key entity rowSets params s).flatten := by
    have hloop : applyTagActions key entity rowSets (fun _ => none) params s = _ :=
      tornLoop_fold (tagStep key entity rowSets s.arr.items) (fun _ _ _ => rfl) _ 0 s
    rw [show tagged = _ from congrArg LoopExit.state hloop]
    exact flatten_callsOfEach (fun _ _ => List.prefix_append _ _) _ s
  have hloop : applyMonitoredActions entity rowSets (fun _ => none) params tagged = _ :=
    tornLoop_fold (monitoredStep entity rowSets tagged.arr.items) (fun _ _ _ => rfl) _ 0 tagged
  rw [hloop, ← htagged]
  exact flatten_callsOfEach (fun _ _ => List.prefix_append _ _) _ tagged

end Runs

section Counts

variable {entity : Entity} {rowSets : RowSets} {sense : Sense} {live : KeyedTable Int LiveItem}
  {i : Int}

/-- The chunks of a tag action name the items it adds its label to. -/
theorem mem_namedItems_added {tag : Int} :
    i ∈ namedItems Edit.added (tagEdits entity rowSets sense tag live) ↔
      i ∈ tagAdds entity rowSets sense tag live := by
  rw [namedItems, List.mem_toFinset, tagEdits_eq, List.flatMap_append, List.flatMap_map,
    List.flatMap_map]
  simp [Edit.added]

/-- And those it takes it from. -/
theorem mem_namedItems_removed {tag : Int} :
    i ∈ namedItems Edit.removed (tagEdits entity rowSets sense tag live) ↔
      i ∈ tagRemoves entity rowSets sense tag live := by
  rw [namedItems, List.mem_toFinset, tagEdits_eq, List.flatMap_append, List.flatMap_map,
    List.flatMap_map]
  simp [Edit.removed]

/-- The calls of a monitoring action name the items it is to change. -/
theorem mem_namedItems_changed {value : Bool} :
    i ∈ namedItems Edit.changed (monitoredEdits entity rowSets sense value live) ↔
      i ∈ monitoredChanges entity rowSets sense value live := by
  rw [namedItems, List.mem_toFinset, monitoredEdits_eq, List.flatMap_map]
  simp [Edit.changed]

/-- What is named in the calls of the chosen actions is named by one of them. -/
theorem mem_namedItems_for {χ : Type} {named : Edit → List Int} {c : χ → Prop}
    [DecidablePred c] {actions : List χ} {calls : List (List Edit)}
    {R : χ → List Edit → Prop} (h : List.Forall₂ R actions calls) {P : χ → Prop}
    (hnamed : ∀ action made, R action made → (i ∈ namedItems named made ↔ P action)) :
    i ∈ namedItems named ((actions.zip calls).flatMap fun made =>
        if c made.1 then made.2 else []) ↔
      ∃ action ∈ actions, c action ∧ P action := by
  induction h with
  | nil => simp [namedItems]
  | @cons action made rest restCalls hfirst _ ih =>
      have hone := hnamed action made hfirst
      unfold namedItems at ih hone ⊢
      rw [List.mem_toFinset] at ih hone ⊢
      rw [List.zip_cons_cons, List.flatMap_cons, List.flatMap_append, List.mem_append, ih,
        List.exists_mem_cons_iff]
      refine or_congr_left ?_
      by_cases hchosen : c action
      · rw [if_pos hchosen, hone, and_iff_right hchosen]
      · simp [hchosen]

end Counts

/-! ## When the two agree -/

/-- What an instance keeps of its own tags: ids are handed out upwards, no two
labels have one key, and an item lists no id that was not handed out. -/
structure ArrLive.TagsKept (arr : ArrLive) : Prop where
  fresh : arr.FreshTags
  unique : ∀ t t' k, arr.labels.row t = some k → arr.labels.row t' = some k → t = t'
  known : ∀ i item, arr.items.row i = some item → ∀ t ∈ item.tags, t < arr.nextTag

/-- With one tag to a key the last is the first. -/
theorem ArrLive.TagsKept.byLabel_eq {arr : ArrLive} (h : arr.TagsKept) (key : String) :
    arr.byLabel key = arr.findTag key := by
  unfold ArrLive.byLabel ArrLive.findTag
  cases hlast : arr.labels.rows.entries.reverse.find? fun row => row.2 = key with
  | none =>
      rw [List.find?_eq_none] at hlast
      have hfirst : (arr.labels.rows.entries.find? fun row => row.2 = key) = none :=
        List.find?_eq_none.mpr fun row hrow => hlast row (List.mem_reverse.mpr hrow)
      rw [hfirst]
  | some last =>
      have hkey : last.2 = key := by simpa using List.find?_some hlast
      have hmem := List.mem_reverse.mp (List.mem_of_find?_eq_some hlast)
      cases hfirst : arr.labels.rows.entries.find? fun row => row.2 = key with
      | none => exact absurd hkey (by simpa using List.find?_eq_none.mp hfirst last hmem)
      | some first =>
          have hkey' : first.2 = key := by simpa using List.find?_some hfirst
          have hmem' := List.mem_of_find?_eq_some hfirst
          have hid : last.1 = first.1 := by
            refine h.unique last.1 first.1 key ?_ ?_
            · rw [KeyedTable.row_eq_some_iff, ← hkey]
              exact hmem
            · rw [KeyedTable.row_eq_some_iff, ← hkey']
              exact hmem'
          rw [Option.map_some, Option.map_some, hid]

section Entries

variable (key : String → String) (entity : Entity) (rowSets : RowSets) (params : RuleParams)
  (arr : ArrLive)

/-- The set of the last tag action with a label, whose counts are kept. -/
def lastTagged (label : String) : Option Sense :=
  ((tagActions params).reverse.find? fun action => action.1 = label).map Prod.snd

/-- The value of the last monitor action on a set. -/
def lastMonitored (sense : Sense) : Option Bool :=
  ((monitoredActions params).reverse.find? fun action => action.2 = sense).map Prod.fst

/-- A listed item carries a label. -/
def carries (label : String) (item : LiveItem) : Bool :=
  (arr.findTag (key label)).any item.hasTag

/-- A set is cut at the limit. -/
def setCut (sense : Sense) : Bool := decide (searchlessLimit ≤ (rowSets sense).length)

/-- The listed items with a property. -/
def listedWhere (p : Int → LiveItem → Bool) : Finset Int :=
  ((arr.items.selectWhere p).map Prod.fst).toFinset

/-- Some tag action with the label has a set with a property. -/
def someTagged (label : String) (p : Sense → Bool) : Bool :=
  (tagActions params).any fun action => decide (action.1 = label) && p action.2

/-- Counted as added, but not on the instance: items of a set whose label is new
to it. -/
def unlistedAdds (label : String) (sense : Sense) : Finset Int :=
  if (arr.findTag (key label)).isNone then
    (targetIds entity sense (rowSets sense)).toFinset.filter fun i => (arr.items.row i).isNone
  else ∅

/-- Not counted as added: what only an action adds whose counts are overwritten. -/
def overwrittenAdds (label : String) (sense : Sense) : Finset Int :=
  listedWhere arr fun i item => !carries key arr label item && !inSet entity rowSets i sense &&
    someTagged params label (inSet entity rowSets i)

/-- Counted as removed, but spared by every action that leaves the item out, as its
set is cut. -/
def sparedRemovals (label : String) (sense : Sense) : Finset Int :=
  listedWhere arr fun i item => carries key arr label item && !inSet entity rowSets i sense &&
    !someTagged params label fun other => !setCut rowSets other && !inSet entity rowSets i other

/-- Not counted as removed: what only an action removes whose counts are
overwritten. -/
def overwrittenRemovals (label : String) (sense : Sense) : Finset Int :=
  listedWhere arr fun i item => carries key arr label item && inSet entity rowSets i sense &&
    someTagged params label fun other => !setCut rowSets other && !inSet entity rowSets i other

/-- What an entry counts too much makes up for what it does not count. -/
structure TagEntrySees (label : String) (sense : Sense) : Prop where
  adds : (unlistedAdds key entity rowSets arr label sense).card =
    (overwrittenAdds key entity rowSets params arr label sense).card
  removes : (sparedRemovals key entity rowSets params arr label sense).card =
    (overwrittenRemovals key entity rowSets params arr label sense).card

/-- No listed item of the set has the last action's value while another action on
the set has the other one. -/
def MonitorEntrySees (sense : Sense) (value : Bool) : Prop :=
  ∀ i item, arr.items.row i = some item → inSet entity rowSets i sense = true →
    item.monitored = value → (!value, sense) ∉ monitoredActions params

end Entries

/-- The id a tag action works with, seen from the state before the first one:
that of a known label, or one handed out since. -/
def TagIdOf (arr : ArrLive) (key : String) (tag : Int) : Prop :=
  arr.findTag key = some tag ∨ (arr.findTag key = none ∧ arr.nextTag ≤ tag)

section Agree

variable {key : String → String} {entity : Entity} {rowSets : RowSets} {params : RuleParams}
  {arr : ArrLive} {label : String} {sense : Sense}

/-- An item is listed if the Arr has it and it passes the test. -/
theorem mem_listedWhere {p : Int → LiveItem → Bool} {i : Int} :
    i ∈ listedWhere arr p ↔ ∃ item, arr.items.row i = some item ∧ p i item = true := by
  rw [listedWhere, List.mem_toFinset, List.mem_map]
  constructor
  · rintro ⟨⟨i, item⟩, hmem, rfl⟩
    exact ⟨item, KeyedTable.mem_selectWhere_iff.mp hmem⟩
  · rintro ⟨item, hrow⟩
    exact ⟨(i, item), KeyedTable.mem_selectWhere_iff.mpr hrow, rfl⟩

/-- An item is listed once. -/
theorem card_listedWhere (p : Int → LiveItem → Bool) :
    (listedWhere arr p).card = (arr.items.selectWhere p).length := by
  rw [listedWhere, List.toFinset_card_of_nodup (KeyedTable.nodup_selectWhere p arr.items),
    List.length_map]

/-- Some tag action of the label passes the test. -/
theorem someTagged_iff {p : Sense → Bool} :
    someTagged params label p = true ↔ ∃ sense, (label, sense) ∈ tagActions params ∧
      p sense = true := by
  simp [someTagged]

/-- The last action of a label is an action of the rule. -/
theorem mem_of_lastTagged (h : lastTagged params label = some sense) :
    (label, sense) ∈ tagActions params := by
  obtain ⟨action, hfind, rfl⟩ := Option.map_eq_some_iff.mp h
  have hlabel : action.1 = label := by simpa using List.find?_some hfind
  rw [← hlabel]
  exact List.mem_reverse.mp (List.mem_of_find?_eq_some hfind)

/-- The last action of a sense is an action of the rule. -/
theorem mem_of_lastMonitored {value : Bool} (h : lastMonitored params sense = some value) :
    (value, sense) ∈ monitoredActions params := by
  obtain ⟨action, hfind, rfl⟩ := Option.map_eq_some_iff.mp h
  have hsense : action.2 = sense := by simpa using List.find?_some hfind
  rw [← hsense]
  exact List.mem_reverse.mp (List.mem_of_find?_eq_some hfind)

/-! ### The entries of the preview -/

variable (key entity rowSets params arr) in
/-- **An entry is what the last action with its label would do.** -/
theorem row_previewTagActions (label : String) :
    (previewTagActions key entity rowSets params arr).row label =
      (lastTagged params label).map fun sense =>
        previewTagAction key entity rowSets arr (label, sense) := by
  rw [previewTagActions, KeyedTable.row_putEach_last, KeyedTable.row_empty, Option.or_none,
    ← List.map_reverse, List.find?_map, lastTagged, Option.map_map, Option.map_map]
  refine Option.map_congr fun action haction => ?_
  have hlabel : action.1 = label := by simpa using List.find?_some haction
  simp [← hlabel]

variable (entity rowSets params arr) in
/-- The entry under a sense is that of the last action with it. -/
theorem row_previewMonitoredActions (sense : Sense) :
    (previewMonitoredActions entity rowSets params arr).row sense =
      (lastMonitored params sense).map fun value =>
        previewMonitoredAction entity rowSets arr.items (value, sense) := by
  rw [previewMonitoredActions, KeyedTable.row_putEach_last, KeyedTable.row_empty, Option.or_none,
    ← List.map_reverse, List.find?_map, lastMonitored, Option.map_map, Option.map_map]
  refine Option.map_congr fun action haction => ?_
  have hsense : action.2 = sense := by simpa using List.find?_some haction
  simp [← hsense]

variable (key entity rowSets arr) in
/-- The items an entry counts as added. -/
def countedAdds (label : String) (sense : Sense) : Finset Int :=
  if (arr.findTag (key label)).isNone then (targetIds entity sense (rowSets sense)).toFinset
  else listedWhere arr fun i item => inSet entity rowSets i sense && !carries key arr label item

variable (key entity rowSets arr) in
/-- The items an entry counts as removed. -/
def countedRemovals (label : String) (sense : Sense) : Finset Int :=
  listedWhere arr fun i item => !inSet entity rowSets i sense && carries key arr label item

/-- An entry counts what it adds. -/
theorem added_previewTagAction (h : arr.TagsKept) :
    (previewTagAction key entity rowSets arr (label, sense)).added =
      (countedAdds key entity rowSets arr label sense).card := by
  unfold previewTagAction previewTagIds countedAdds carries
  rw [h.byLabel_eq]
  cases hfind : arr.findTag (key label) with
  | none => simp [List.card_toFinset]
  | some tag =>
      simp only [List.length_insertionSort, List.length_map, Option.isNone_some,
        Bool.false_eq_true, if_false, card_listedWhere]
      simp [inSet, LiveItem.hasTag]

/-- An entry counts what it removes. -/
theorem removed_previewTagAction (h : arr.TagsKept) :
    (previewTagAction key entity rowSets arr (label, sense)).removed =
      (countedRemovals key entity rowSets arr label sense).card := by
  unfold previewTagAction previewTagIds countedRemovals carries
  rw [h.byLabel_eq, card_listedWhere]
  cases hfind : arr.findTag (key label) with
  | none => simp [KeyedTable.selectWhere]
  | some tag => simp [inSet, LiveItem.hasTag]

/-! ### The calls of a run -/

/-- What the earlier tag actions of a rule leave of the labels. -/
structure LabelsGrown (arr arr' : ArrLive) : Prop where
  fresh : arr'.FreshTags
  upwards : arr.nextTag ≤ arr'.nextTag
  kept : ∀ k t, arr.findTag k = some t → arr'.findTag k = some t
  handedOut : ∀ k t, arr.findTag k = none → arr'.findTag k = some t → arr.nextTag ≤ t

/-- Before the first action the labels are as they are. -/
theorem LabelsGrown.refl (h : arr.FreshTags) : LabelsGrown arr arr where
  fresh := h
  upwards := Int.le_refl _
  kept := fun _ _ hfind => hfind
  handedOut := fun k t hnone hsome => by rw [hnone] at hsome; cases hsome

/-- Edits leave the labels. -/
theorem LabelsGrown.edits {arr' : ArrLive} (h : LabelsGrown arr arr') (es : List Edit) :
    LabelsGrown arr (arr'.edits es) where
  fresh := h.fresh.edits es
  upwards := by
    rw [ArrLive.nextTag_edits]
    exact h.upwards
  kept := fun k t hfind => by
    rw [ArrLive.findTag_edits]
    exact h.kept k t hfind
  handedOut := fun k t hnone hsome => by
    rw [ArrLive.findTag_edits] at hsome
    exact h.handedOut k t hnone hsome

/-- The id an action is given. -/
theorem LabelsGrown.tagIdOf {arr' : ArrLive} (h : LabelsGrown arr arr') (k : String) :
    TagIdOf arr k (arr'.ensureTagId k).2 := by
  unfold ArrLive.ensureTagId
  cases hnow : arr.findTag k with
  | some t =>
      rw [h.kept k t hnow]
      exact Or.inl hnow
  | none =>
      refine Or.inr ⟨hnow, ?_⟩
      cases hlater : arr'.findTag k with
      | some t => exact h.handedOut k t hnow hlater
      | none => exact h.upwards

/-- A tag that is made adds a label. -/
theorem LabelsGrown.ensureTagId {arr' : ArrLive} (h : LabelsGrown arr arr') (k : String) :
    LabelsGrown arr (arr'.ensureTagId k).1 where
  fresh := h.fresh.ensureTagId k
  upwards := by
    unfold ArrLive.ensureTagId
    split
    · exact h.upwards
    · exact h.upwards.trans (arr'.editor.lt_next arr'.nextTag).le
  kept := fun k' t hfind => ArrLive.findTag_ensureTagId_of_some h.fresh (h.kept k' t hfind)
  handedOut := fun k' t hnone hsome => by
    rw [ArrLive.findTag_ensureTagId h.fresh] at hsome
    split at hsome
    · next heq =>
        obtain rfl := Option.some.inj hsome
        rcases h.tagIdOf k with hfind | ⟨-, hle⟩
        · rw [← heq, hnone] at hfind
          cases hfind
        · exact hle
    · exact h.handedOut k' t hnone hsome

/-- From before the first action it can be told which items have the tag of a
later one. -/
theorem TagIdOf.hasTag_eq (h : arr.TagsKept) {tag : Int} (htag : TagIdOf arr (key label) tag)
    {i : Int} {item : LiveItem} (hrow : arr.items.row i = some item) :
    item.hasTag tag = carries key arr label item := by
  unfold carries
  rcases htag with hfind | ⟨hfind, hnew⟩
  · rw [hfind]
    rfl
  · rw [hfind, Option.any_none, LiveItem.hasTag, decide_eq_false_iff_not]
    intro hmem
    have hlt := h.known i item hrow tag hmem
    omega

variable (key entity rowSets) in
/-- **The tag actions of a rule**, one after the other. -/
theorem callsOfEach_tagActions (actions : List (String × Sense)) :
    ∀ s : Edited, LabelsGrown arr s.arr →
      List.Forall₂ (fun action made => ∃ tag, TagIdOf arr (key action.1) tag ∧
          made = tagEdits entity rowSets action.2 tag arr.items) actions
        (callsOfEach (applyTagAction key entity rowSets (fun _ => none) arr.items 0)
          actions s) := by
  induction actions with
  | nil => exact fun _ _ => List.Forall₂.nil
  | cons action rest ih =>
      intro s hgrown
      have hnext : LabelsGrown arr
          (applyTagAction key entity rowSets (fun _ => none) arr.items 0 action s).1.arr :=
        (hgrown.ensureTagId (key action.1)).edits _
      exact List.Forall₂.cons ⟨_, hgrown.tagIdOf (key action.1), List.drop_left⟩ (ih _ hnext)

variable (key entity rowSets params) in
/-- The items a run adds a label to. -/
theorem mem_added_tagCallsFor {s : Edited} (h : s.arr.TagsKept) {i : Int} :
    i ∈ namedItems Edit.added (tagCallsFor key entity rowSets params s label) ↔
      ∃ item, s.arr.items.row i = some item ∧ carries key s.arr label item = false ∧
        someTagged params label (inSet entity rowSets i) = true := by
  have hcalls := callsOfEach_tagActions key entity rowSets (tagActions params) s
    (LabelsGrown.refl h.fresh)
  have hnamed : ∀ (action : String × Sense) (made : List Edit),
      (∃ tag, TagIdOf s.arr (key action.1) tag ∧
        made = tagEdits entity rowSets action.2 tag s.arr.items) →
      (i ∈ namedItems Edit.added made ↔ ∃ item, s.arr.items.row i = some item ∧
        inSet entity rowSets i action.2 = true ∧ carries key s.arr action.1 item = false) := by
    rintro ⟨label, sense⟩ made ⟨tag, htag, rfl⟩
    rw [mem_namedItems_added, mem_tagAdds]
    refine exists_congr fun item => and_congr_right fun hrow => ?_
    rw [htag.hasTag_eq h hrow]
  have hchosen := mem_namedItems_for (c := fun action => action.1 = label) hcalls hnamed
  rw [tagCallsFor, tagCallsOfEach, hchosen, someTagged_iff]
  constructor
  · rintro ⟨⟨label, sense⟩, haction, rfl, item, hrow, hset, hfree⟩
    exact ⟨item, hrow, hfree, sense, haction, hset⟩
  · rintro ⟨item, hrow, hfree, sense, haction, hset⟩
    exact ⟨(label, sense), haction, rfl, item, hrow, hset, hfree⟩

variable (key entity rowSets params) in
/-- The items a run takes a label from: those that some set leaves out which is
not cut. -/
theorem mem_removed_tagCallsFor {s : Edited} (h : s.arr.TagsKept) {i : Int} :
    i ∈ namedItems Edit.removed (tagCallsFor key entity rowSets params s label) ↔
      ∃ item, s.arr.items.row i = some item ∧ carries key s.arr label item = true ∧
        someTagged params label
          (fun other => !setCut rowSets other && !inSet entity rowSets i other) = true := by
  have hcalls := callsOfEach_tagActions key entity rowSets (tagActions params) s
    (LabelsGrown.refl h.fresh)
  have hnamed : ∀ (action : String × Sense) (made : List Edit),
      (∃ tag, TagIdOf s.arr (key action.1) tag ∧
        made = tagEdits entity rowSets action.2 tag s.arr.items) →
      (i ∈ namedItems Edit.removed made ↔ (rowSets action.2).length < searchlessLimit ∧
        ∃ item, s.arr.items.row i = some item ∧
          inSet entity rowSets i action.2 = false ∧ carries key s.arr action.1 item = true) := by
    rintro ⟨label, sense⟩ made ⟨tag, htag, rfl⟩
    rw [mem_namedItems_removed, mem_tagRemoves_iff]
    refine and_congr_right fun _ => exists_congr fun item => and_congr_right fun hrow => ?_
    rw [htag.hasTag_eq h hrow]
  have hchosen := mem_namedItems_for (c := fun action => action.1 = label) hcalls hnamed
  rw [tagCallsFor, tagCallsOfEach, hchosen, someTagged_iff]
  constructor
  · rintro ⟨⟨label, sense⟩, haction, rfl, hwhole, item, hrow, hset, htagged⟩
    exact ⟨item, hrow, htagged, sense, haction, by simp [setCut, hset, hwhole]⟩
  · rintro ⟨item, hrow, htagged, sense, haction, hout⟩
    simp only [setCut, Bool.and_eq_true, Bool.not_eq_true', decide_eq_false_iff_not,
      not_le] at hout
    exact ⟨(label, sense), haction, rfl, hout.1, item, hrow, hout.2, htagged⟩

variable (key entity rowSets) in
/-- Tag actions leave the monitored flags alone. -/
theorem monitored_applyTagActions (params : RuleParams) (s : Edited) (i : Int) :
    ((applyTagActions key entity rowSets (fun _ => none) params s).state.arr.items.row i).map
        LiveItem.monitored = (s.arr.items.row i).map LiveItem.monitored := by
  refine tornLoop_invariant (fun s' => (s'.arr.items.row i).map LiveItem.monitored =
    (s.arr.items.row i).map LiveItem.monitored) ?_ (tagActions params) 0 s rfl
  intro n action s' hbefore
  rw [← hbefore]
  simp only [applyTagAction, ArrLive.row_edits, ArrLive.items_ensureTagId, Option.map_map]
  cases s'.arr.items.row i with
  | none => rfl
  | some item =>
      simp only [Option.map_some, Function.comp_apply, tagEdits_eq, LiveItem.edited_append,
        (LiveItem.edited_addTag ..).1, (LiveItem.edited_removeTag ..).1]

variable (entity rowSets) in
/-- **The monitor actions of a rule**, one after the other. -/
theorem callsOfEach_monitoredActions (live : KeyedTable Int LiveItem)
    (actions : List (Bool × Sense)) :
    ∀ s : Edited, List.Forall₂
      (fun action made => made = monitoredEdits entity rowSets action.2 action.1 live) actions
      (callsOfEach (applyMonitoredAction entity rowSets (fun _ => none) live 0) actions s) := by
  induction actions with
  | nil => exact fun _ => List.Forall₂.nil
  | cons action rest ih => exact fun s => List.Forall₂.cons List.drop_left (ih _)

variable (key entity rowSets params) in
/-- The items a run sets the flag of, for one of the sets. -/
theorem mem_changed_monitoredCallsFor {s : Edited} {i : Int} :
    i ∈ namedItems Edit.changed (monitoredCallsFor key entity rowSets params s sense) ↔
      ∃ item, s.arr.items.row i = some item ∧ inSet entity rowSets i sense = true ∧
        (!item.monitored, sense) ∈ monitoredActions params := by
  have hcalls := callsOfEach_monitoredActions entity rowSets
    (applyTagActions key entity rowSets (fun _ => none) params s).state.arr.items
    (monitoredActions params) (applyTagActions key entity rowSets (fun _ => none) params s).state
  have hnamed : ∀ (action : Bool × Sense) (made : List Edit),
      made = monitoredEdits entity rowSets action.2 action.1
        (applyTagActions key entity rowSets (fun _ => none) params s).state.arr.items →
      (i ∈ namedItems Edit.changed made ↔ ∃ item, s.arr.items.row i = some item ∧
        inSet entity rowSets i action.2 = true ∧ item.monitored ≠ action.1) := by
    rintro ⟨value, sense⟩ made rfl
    rw [mem_namedItems_changed, mem_monitoredChanges]
    -- the second listing has the flags of the first
    have hflags := monitored_applyTagActions key entity rowSets params s i
    constructor
    · rintro ⟨item', hrow', hset, hne⟩
      rw [hrow', Option.map_some, eq_comm, Option.map_eq_some_iff] at hflags
      obtain ⟨item, hrow, hsame⟩ := hflags
      exact ⟨item, hrow, hset, hsame ▸ hne⟩
    · rintro ⟨item, hrow, hset, hne⟩
      rw [hrow, Option.map_some, Option.map_eq_some_iff] at hflags
      obtain ⟨item', hrow', hsame⟩ := hflags
      exact ⟨item', hrow', hset, hsame ▸ hne⟩
  have hchosen := mem_namedItems_for (c := fun action => action.2 = sense) hcalls hnamed
  rw [monitoredCallsFor, monitoredCallsOfEach, hchosen]
  constructor
  · rintro ⟨⟨value, sense⟩, haction, rfl, item, hrow, hset, hne⟩
    exact ⟨item, hrow, hset, Bool.eq_not.mpr (Ne.symm hne) ▸ haction⟩
  · rintro ⟨item, hrow, hset, haction⟩
    exact ⟨(!item.monitored, sense), haction, rfl, item, hrow, hset, by simp⟩

/-! ### The two, entry by entry -/

variable (key entity rowSets) in
/-- The preview of a rule counts, entry by entry, the items that the live run
from the same state adds the label to, removes it from and changes. -/
structure PreviewExact (params : RuleParams) (s : Edited) : Prop where
  tags : ∀ label entry, (previewTagActions key entity rowSets params s.arr).row label = some entry →
    entry.added = (namedItems Edit.added (tagCallsFor key entity rowSets params s label)).card ∧
      entry.removed = (namedItems Edit.removed (tagCallsFor key entity rowSets params s label)).card
  monitored : ∀ sense entry,
    (previewMonitoredActions entity rowSets params s.arr).row sense = some entry →
      entry.changed =
        (namedItems Edit.changed (monitoredCallsFor key entity rowSets params s sense)).card

section Sides

variable {s : Edited}

/-- What an entry counts as added and the run does not add has left the instance. -/
theorem countedAdds_sdiff (h : s.arr.TagsKept) (hlast : lastTagged params label = some sense) :
    countedAdds key entity rowSets s.arr label sense \
        namedItems Edit.added (tagCallsFor key entity rowSets params s label) =
      unlistedAdds key entity rowSets s.arr label sense := by
  ext i
  have hsome : inSet entity rowSets i sense = true →
      someTagged params label (inSet entity rowSets i) = true :=
    fun hset => someTagged_iff.mpr ⟨sense, mem_of_lastTagged hlast, hset⟩
  rw [Finset.mem_sdiff, mem_added_tagCallsFor key entity rowSets params h]
  unfold countedAdds unlistedAdds
  cases hfind : s.arr.findTag (key label) with
  | some tag =>
      rw [if_neg (by simp), if_neg (by simp), mem_listedWhere]
      refine iff_of_false ?_ (Finset.notMem_empty i)
      rintro ⟨⟨item, hrow, hcounted⟩, hnot⟩
      simp only [Bool.and_eq_true, Bool.not_eq_true'] at hcounted
      exact hnot ⟨item, hrow, hcounted.2, hsome hcounted.1⟩
  | none =>
      have hfree : ∀ item, carries key s.arr label item = false := by
        intro item
        rw [carries, hfind, Option.any_none]
      rw [if_pos (by simp), if_pos (by simp), Finset.mem_filter, List.mem_toFinset]
      refine and_congr_right fun hset => ?_
      have hset' : inSet entity rowSets i sense = true := by simpa [inSet] using hset
      rw [Option.isNone_iff_eq_none, Option.eq_none_iff_forall_ne_some]
      constructor
      · exact fun hnot item hrow => hnot ⟨item, hrow, hfree item, hsome hset'⟩
      · rintro hnone ⟨item, hrow, -⟩
        exact hnone item hrow

/-- What the run adds and an entry does not count was added by an action whose
counts are overwritten. -/
theorem sdiff_countedAdds (h : s.arr.TagsKept) :
    namedItems Edit.added (tagCallsFor key entity rowSets params s label) \
        countedAdds key entity rowSets s.arr label sense =
      overwrittenAdds key entity rowSets params s.arr label sense := by
  ext i
  rw [Finset.mem_sdiff, mem_added_tagCallsFor key entity rowSets params h, overwrittenAdds,
    mem_listedWhere]
  have hcounted : ∀ item, s.arr.items.row i = some item → carries key s.arr label item = false →
      (i ∈ countedAdds key entity rowSets s.arr label sense ↔
        inSet entity rowSets i sense = true) := by
    intro item hrow hfree
    unfold countedAdds
    split
    · simp [inSet]
    · rw [mem_listedWhere]
      simp [hrow, hfree]
  constructor
  · rintro ⟨⟨item, hrow, hfree, hsome⟩, hnot⟩
    rw [hcounted item hrow hfree] at hnot
    exact ⟨item, hrow, by simp [hfree, hsome, hnot]⟩
  · rintro ⟨item, hrow, htest⟩
    simp only [Bool.and_eq_true, Bool.not_eq_true'] at htest
    obtain ⟨⟨hfree, hout⟩, hsome⟩ := htest
    rw [hcounted item hrow hfree, hout]
    exact ⟨⟨item, hrow, hfree, hsome⟩, Bool.false_ne_true⟩

/-- Counted but not removed is what the other actions spare. -/
theorem countedRemovals_sdiff (h : s.arr.TagsKept) :
    countedRemovals key entity rowSets s.arr label sense \
        namedItems Edit.removed (tagCallsFor key entity rowSets params s label) =
      sparedRemovals key entity rowSets params s.arr label sense := by
  ext i
  rw [Finset.mem_sdiff, mem_removed_tagCallsFor key entity rowSets params h, countedRemovals,
    sparedRemovals, mem_listedWhere, mem_listedWhere]
  cases hrow : s.arr.items.row i with
  | none => simp
  | some item =>
      cases inSet entity rowSets i sense <;>
        cases htagged : carries key s.arr label item <;> simp [htagged]

/-- Removed but not counted is what the overwritten entries counted. -/
theorem sdiff_countedRemovals (h : s.arr.TagsKept) :
    namedItems Edit.removed (tagCallsFor key entity rowSets params s label) \
        countedRemovals key entity rowSets s.arr label sense =
      overwrittenRemovals key entity rowSets params s.arr label sense := by
  ext i
  rw [Finset.mem_sdiff, mem_removed_tagCallsFor key entity rowSets params h, countedRemovals,
    overwrittenRemovals, mem_listedWhere, mem_listedWhere]
  cases hrow : s.arr.items.row i with
  | none => simp
  | some item =>
      cases inSet entity rowSets i sense <;>
        cases htagged : carries key s.arr label item <;> simp [htagged]

/-- **An entry of a label is right exactly when the two sides make up for each
other.** -/
theorem tagEntry_iff (h : s.arr.TagsKept) (hlast : lastTagged params label = some sense) :
    ((previewTagAction key entity rowSets s.arr (label, sense)).added =
          (namedItems Edit.added (tagCallsFor key entity rowSets params s label)).card ∧
        (previewTagAction key entity rowSets s.arr (label, sense)).removed =
          (namedItems Edit.removed (tagCallsFor key entity rowSets params s label)).card) ↔
      TagEntrySees key entity rowSets params s.arr label sense := by
  have hadds := Finset.card_sdiff_eq_card_sdiff_iff
    (s := countedAdds key entity rowSets s.arr label sense)
    (t := namedItems Edit.added (tagCallsFor key entity rowSets params s label))
  have hremoves := Finset.card_sdiff_eq_card_sdiff_iff
    (s := countedRemovals key entity rowSets s.arr label sense)
    (t := namedItems Edit.removed (tagCallsFor key entity rowSets params s label))
  rw [countedAdds_sdiff h hlast, sdiff_countedAdds h] at hadds
  rw [countedRemovals_sdiff h, sdiff_countedRemovals h] at hremoves
  rw [added_previewTagAction h, removed_previewTagAction h, ← hadds, ← hremoves]
  exact ⟨fun hsees => ⟨hsees.1, hsees.2⟩, fun hsees => ⟨hsees.adds, hsees.removes⟩⟩

end Sides

/-- **An entry of a set is right exactly when no action on the set changes an
item that the last one leaves.** -/
theorem monitorEntry_iff {s : Edited} {value : Bool}
    (hlast : lastMonitored params sense = some value) :
    (previewMonitoredAction entity rowSets s.arr.items (value, sense)).changed =
        (namedItems Edit.changed (monitoredCallsFor key entity rowSets params s sense)).card ↔
      MonitorEntrySees entity rowSets params s.arr sense value := by
  have hcounted : (previewMonitoredAction entity rowSets s.arr.items (value, sense)).changed =
      (listedWhere s.arr fun i item =>
        inSet entity rowSets i sense && item.monitored != value).card := by
    have hlist : (listedWhere s.arr fun i item =>
        inSet entity rowSets i sense && item.monitored != value) =
          ((targetIds entity sense (rowSets sense)).dedup.filter fun id =>
            (s.arr.items.row id).any fun item => item.monitored != value).toFinset := by
      ext i
      rw [mem_listedWhere, List.mem_toFinset, List.mem_filter, List.mem_dedup]
      cases s.arr.items.row i <;> simp [inSet]
    rw [hlist, List.toFinset_card_of_nodup ((List.nodup_dedup _).filter _), previewMonitoredAction,
      List.length_insertionSort]
  have hsub : (listedWhere s.arr fun i item =>
      inSet entity rowSets i sense && item.monitored != value) ⊆
        namedItems Edit.changed (monitoredCallsFor key entity rowSets params s sense) := by
    intro i hi
    obtain ⟨item, hrow, htest⟩ := mem_listedWhere.mp hi
    simp only [Bool.and_eq_true, bne_iff_ne, ne_eq] at htest
    refine (mem_changed_monitoredCallsFor key entity rowSets params).mpr
      ⟨item, hrow, htest.1, ?_⟩
    rw [← Bool.eq_not.mpr (Ne.symm htest.2)]
    exact mem_of_lastMonitored hlast
  rw [hcounted]
  constructor
  · intro hcard i item hrow hset hsame hother
    have hall := Finset.eq_of_subset_of_card_le hsub hcard.ge
    have hmem : i ∈ namedItems Edit.changed (monitoredCallsFor key entity rowSets params s sense) :=
      (mem_changed_monitoredCallsFor key entity rowSets params).mpr
        ⟨item, hrow, hset, hsame ▸ hother⟩
    rw [← hall] at hmem
    obtain ⟨item', hrow', htest⟩ := mem_listedWhere.mp hmem
    obtain rfl := Option.some.inj (hrow.symm.trans hrow')
    simp [hsame] at htest
  · intro hsees
    refine congrArg Finset.card (hsub.antisymm fun i hi => ?_)
    obtain ⟨item, hrow, hset, hother⟩ :=
      (mem_changed_monitoredCallsFor key entity rowSets params).mp hi
    refine mem_listedWhere.mpr ⟨item, hrow, ?_⟩
    have hne : item.monitored ≠ value := fun hsame =>
      hsees i item hrow hset hsame (hsame ▸ hother)
    simp [hset, hne]

/-- **The preview is the apply exactly where each entry sees everything.** -/
theorem previewExact_iff (params : RuleParams) (s : Edited) (h : s.arr.TagsKept) :
    PreviewExact key entity rowSets params s ↔
      (∀ label sense, lastTagged params label = some sense →
        TagEntrySees key entity rowSets params s.arr label sense) ∧
      (∀ sense value, lastMonitored params sense = some value →
        MonitorEntrySees entity rowSets params s.arr sense value) := by
  constructor
  · intro hexact
    refine ⟨fun label sense hlast => ?_, fun sense value hlast => ?_⟩
    · rw [← tagEntry_iff h hlast]
      refine hexact.tags label _ ?_
      rw [row_previewTagActions, hlast, Option.map_some]
    · refine (monitorEntry_iff hlast).mp (hexact.monitored sense _ ?_)
      rw [row_previewMonitoredActions, hlast, Option.map_some]
  · rintro ⟨htags, hmonitored⟩
    refine ⟨fun label entry hentry => ?_, fun sense entry hentry => ?_⟩
    · rw [row_previewTagActions, Option.map_eq_some_iff] at hentry
      obtain ⟨sense, hlast, rfl⟩ := hentry
      exact (tagEntry_iff h hlast).mpr (htags label sense hlast)
    · rw [row_previewMonitoredActions, Option.map_eq_some_iff] at hentry
      obtain ⟨value, hlast, rfl⟩ := hentry
      exact (monitorEntry_iff hlast).mpr (hmonitored sense value hlast)

/-- A label with one set: nothing is overwritten, so nothing may be counted too
much. -/
theorem tagEntrySees_iff_of_alone (hlast : lastTagged params label = some sense)
    (halone : ∀ other, (label, other) ∈ tagActions params → other = sense) :
    TagEntrySees key entity rowSets params arr label sense ↔
      (arr.findTag (key label) = none →
        ∀ i ∈ targetIds entity sense (rowSets sense), (arr.items.row i).isSome = true) ∧
      (setCut rowSets sense = true → ∀ i item, arr.items.row i = some item →
        carries key arr label item = true → inSet entity rowSets i sense = true) := by
  have hsome : ∀ p : Sense → Bool, someTagged params label p = p sense := by
    intro p
    rw [Bool.eq_iff_iff, someTagged_iff]
    constructor
    · rintro ⟨other, hother, hp⟩
      rwa [halone other hother] at hp
    · exact fun hp => ⟨sense, mem_of_lastTagged hlast, hp⟩
  have hadds : overwrittenAdds key entity rowSets params arr label sense = ∅ := by
    rw [Finset.eq_empty_iff_forall_notMem]
    intro i hi
    obtain ⟨item, -, htest⟩ := mem_listedWhere.mp hi
    simp only [hsome, Bool.and_eq_true, Bool.not_eq_true'] at htest
    exact Bool.false_ne_true (htest.1.2.symm.trans htest.2)
  have hremovals : overwrittenRemovals key entity rowSets params arr label sense = ∅ := by
    rw [Finset.eq_empty_iff_forall_notMem]
    intro i hi
    obtain ⟨item, -, htest⟩ := mem_listedWhere.mp hi
    simp only [hsome, Bool.and_eq_true, Bool.not_eq_true'] at htest
    exact Bool.false_ne_true (htest.2.2.symm.trans htest.1.2)
  have hunlisted : unlistedAdds key entity rowSets arr label sense = ∅ ↔
      (arr.findTag (key label) = none →
        ∀ i ∈ targetIds entity sense (rowSets sense), (arr.items.row i).isSome = true) := by
    unfold unlistedAdds
    cases arr.findTag (key label) with
    | some tag => simp
    | none => simp [Finset.filter_eq_empty_iff, Option.isSome_iff_ne_none]
  have hspared : sparedRemovals key entity rowSets params arr label sense = ∅ ↔
      (setCut rowSets sense = true → ∀ i item, arr.items.row i = some item →
        carries key arr label item = true → inSet entity rowSets i sense = true) := by
    rw [Finset.eq_empty_iff_forall_notMem]
    unfold sparedRemovals
    simp only [mem_listedWhere, hsome]
    constructor
    · intro hnone hcut i item hrow htagged
      by_contra hout
      exact hnone i ⟨item, hrow, by simp [hcut, htagged, hout]⟩
    · rintro hall i ⟨item, hrow, htest⟩
      simp only [Bool.and_eq_true, Bool.not_eq_true', Bool.and_eq_false_imp] at htest
      obtain ⟨⟨htagged, hout⟩, hcut⟩ := htest
      have hin := hall (by simpa [hout] using hcut) i item hrow htagged
      exact Bool.false_ne_true (hout.symm.trans hin)
  constructor
  · intro hsees
    have h1 := hsees.adds
    have h2 := hsees.removes
    rw [hadds, Finset.card_empty, Finset.card_eq_zero] at h1
    rw [hremovals, Finset.card_empty, Finset.card_eq_zero] at h2
    exact ⟨hunlisted.mp h1, hspared.mp h2⟩
  · rintro ⟨h1, h2⟩
    refine ⟨?_, ?_⟩
    · rw [hadds, hunlisted.mpr h1]
    · rw [hremovals, hspared.mpr h2]

end Agree

/-- Movie 6 is labelled "ready", which movie 5 is not yet. -/
def readyMovies : ArrLive :=
  ⟨KeyedTable.empty.upsert 1 "ready" id,
    (KeyedTable.empty.upsert 6 ⟨[1], true⟩ id).upsert 5 ⟨[], true⟩ id, 2, .appending⟩

/-- Movie 5 is done, movie 6 is not. -/
def doneAndOpen : RowSets
  | .conforming => [{ sourceId := 5, title := "a" }]
  | .nonConforming => [{ sourceId := 6, title := "b" }]

/-- The instance keeps its own tags. -/
theorem tagsKept_readyMovies : readyMovies.TagsKept := by
  have hlabel : ∀ t k, readyMovies.labels.row t = some k → t = 1 := by
    intro t k hrow
    by_contra hne
    rw [readyMovies, KeyedTable.row_upsert_of_ne hne, KeyedTable.row_empty] at hrow
    cases hrow
  refine ⟨fun id hid => ?_, fun t t' k h h' => (hlabel t k h).trans (hlabel t' k h').symm, ?_⟩
  · have hne : id ≠ 1 := by
      rintro rfl
      exact absurd hid (by decide)
    rw [readyMovies, KeyedTable.row_upsert_of_ne hne, KeyedTable.row_empty]
  · intro i item hrow t ht
    have htags : item.tags = [1] ∨ item.tags = [] := by
      rw [readyMovies, KeyedTable.row_upsert] at hrow
      split at hrow
      · rw [← Option.some.inj hrow]
        exact Or.inr rfl
      · rw [KeyedTable.row_upsert] at hrow
        split at hrow
        · rw [← Option.some.inj hrow]
          exact Or.inl rfl
        · cases hrow
    rcases htags with htags | htags
    · rw [htags, List.mem_singleton] at ht
      rw [ht]
      decide
    · rw [htags] at ht
      cases ht

/-- A rule that labels what is ready and what is open, and stops watching what is
ready. -/
def readyRule : RuleParams where
  actions := [.tag "ready" .conforming, .tag "open" .nonConforming, .setMonitored false .conforming]

/-- Its preview counts movie 5 as labelled, movie 6 as unlabelled and then labelled
"open", and movie 5 as no longer watched. -/
theorem previewExact_readyRule :
    PreviewExact id .movie doneAndOpen readyRule ⟨readyMovies, []⟩ := by
  refine (previewExact_iff readyRule ⟨readyMovies, []⟩ tagsKept_readyMovies).mpr ⟨?_, ?_⟩
  · intro label sense hlast
    have hmem : (label, sense) ∈ [("ready", Sense.conforming), ("open", Sense.nonConforming)] :=
      mem_of_lastTagged hlast
    simp only [List.mem_cons, List.not_mem_nil, or_false, Prod.mk.injEq] at hmem
    rcases hmem with ⟨rfl, rfl⟩ | ⟨rfl, rfl⟩
    · exact ⟨by decide, by decide⟩
    · exact ⟨by decide, by decide⟩
  · intro sense value hlast i item _ _ _ hother
    have hmem : (value, sense) ∈ [(false, Sense.conforming)] := mem_of_lastMonitored hlast
    obtain ⟨rfl, rfl⟩ := Prod.mk.inj (List.mem_singleton.mp hmem)
    exact absurd hother (by decide)

/-- A rule that only labels what is ready. -/
def labelRule : RuleParams := { actions := [.tag "ready" .conforming] }

/-- Movie 6 has left the instance; the preview counts it and the run does not. -/
theorem not_previewExact_movieGone :
    ¬ PreviewExact id .movie
      (fun _ => [{ sourceId := 5, title := "a" }, { sourceId := 6, title := "b" }]) labelRule
      ⟨⟨KeyedTable.empty, KeyedTable.empty.upsert 5 ⟨[], true⟩ id, 1, .appending⟩, []⟩ := by
  intro h
  have htags := (h.tags "ready" ⟨2, 0, [5, 6], []⟩ (by decide)).1
  revert htags
  decide

/-- A rule that turns a flag on and off again. -/
def flipRule : RuleParams where
  actions := [.setMonitored true .conforming, .setMonitored false .conforming]

/-- The second action overwrites what the first would do: of movie 5, which is not
watched, the preview tells no change, and the run starts to watch it. -/
example :
    let unwatched : ArrLive :=
      ⟨KeyedTable.empty, KeyedTable.empty.upsert 5 ⟨[], false⟩ id, 1, .appending⟩
    ((previewMonitoredActions .movie doneAndOpen flipRule unwatched).row .conforming).map
        MonitorPreview.changed = some 0 ∧
      namedItems Edit.changed
        (monitoredCallsFor id .movie doneAndOpen flipRule ⟨unwatched, []⟩ .conforming) = {5} := by
  decide

end Nebularr
