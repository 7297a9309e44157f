import Nebularr.ArrEditor
import Nebularr.SnapshotWrites

/-!
# What the actions leave on an instance

When no call breaks off, the actions of a rule are writers of two kinds of
flags: whether an item has a tag, and whether it is monitored.  Both are
compared with a listing read before the first action, so what they leave is
what `settle` says: of a tag, by the sets the item is in; of the monitored
flag, by the values whose sets it is in.
-/

namespace Nebularr

namespace LiveItem

variable (item : LiveItem) (editor : ArrEditor) (id : Int)

/-- An item after editor calls. -/
def edited (es : List Edit) : LiveItem := es.foldl (fun item e => item.edit editor id e) item

/-- No edit changes nothing. -/
@[simp] theorem edited_nil : item.edited editor id [] = item := rfl

/-- The first edit comes before the rest. -/
theorem edited_cons {e : Edit} {es : List Edit} :
    item.edited editor id (e :: es) = (item.edit editor id e).edited editor id es := rfl

/-- Two lists of edits come one after the other. -/
theorem edited_append {es es' : List Edit} :
    item.edited editor id (es ++ es') = (item.edited editor id es).edited editor id es' :=
  List.foldl_append

/-- Calls that add a tag add it to the items they name. -/
theorem edited_addTag (tag : Int) (chunks : List (List Int)) :
    (item.edited editor id (chunks.map (Edit.addTag · tag))).monitored = item.monitored ∧
      ∀ t, t ∈ (item.edited editor id (chunks.map (Edit.addTag · tag))).tags ↔
        t ∈ item.tags ∨ (t = tag ∧ ∃ chunk ∈ chunks, id ∈ chunk) := by
  induction chunks generalizing item with
  | nil => simp
  | cons chunk rest ih =>
      obtain ⟨hmonitored, htags⟩ := ih (item.edit editor id (.addTag chunk tag))
      rw [List.map_cons, edited_cons]
      refine ⟨?_, fun t => ?_⟩
      · rw [hmonitored, edit, editor.monitored_addTag]
      · rw [htags, edit, editor.tags_addTag, List.exists_mem_cons_iff, or_assoc, ← and_or_left]

/-- Calls that remove a tag take it from the items they name. -/
theorem edited_removeTag (tag : Int) (chunks : List (List Int)) :
    (item.edited editor id (chunks.map (Edit.removeTag · tag))).monitored = item.monitored ∧
      ∀ t, t ∈ (item.edited editor id (chunks.map (Edit.removeTag · tag))).tags ↔
        t ∈ item.tags ∧ ¬ (t = tag ∧ ∃ chunk ∈ chunks, id ∈ chunk) := by
  induction chunks generalizing item with
  | nil => simp
  | cons chunk rest ih =>
      obtain ⟨hmonitored, htags⟩ := ih (item.edit editor id (.removeTag chunk tag))
      rw [List.map_cons, edited_cons]
      refine ⟨?_, fun t => ?_⟩
      · rw [hmonitored, edit, editor.monitored_removeTag]
      · rw [htags, edit, editor.tags_removeTag, List.exists_mem_cons_iff, and_assoc, ← not_or,
          ← and_or_left]

/-- Calls that set the monitored flag set it on the items they name. -/
theorem edited_setMonitored (value : Bool) (chunks : List (List Int)) :
    (item.edited editor id (chunks.map (Edit.setMonitored · value))).tags = item.tags ∧
      (item.edited editor id (chunks.map (Edit.setMonitored · value))).monitored =
        if ∃ chunk ∈ chunks, id ∈ chunk then value else item.monitored := by
  induction chunks generalizing item with
  | nil => simp
  | cons chunk rest ih =>
      obtain ⟨htags, hmonitored⟩ := ih (item.edit editor id (.setMonitored chunk value))
      rw [List.map_cons, edited_cons]
      refine ⟨?_, ?_⟩
      · rw [htags, edit, editor.tags_setMonitored]
      · rw [hmonitored, edit, editor.monitored_setMonitored]
        by_cases hset : id ∈ chunk
        · simp [hset]
        · simp [hset]

end LiveItem

namespace ArrLive

variable (arr : ArrLive)

/-- An item of an Arr undergoes the edits by itself. -/
theorem row_edits (es : List Edit) (i : Int) :
    (arr.edits es).items.row i = (arr.items.row i).map fun item => item.edited arr.editor i es := by
  unfold edits
  induction es generalizing arr with
  | nil => simp
  | cons e rest ih =>
      rw [List.foldl_cons, ih, edit, KeyedTable.row_mapRows, Option.map_map]
      rfl

/-- Edits leave the Arr's ways as they are. -/
@[simp] theorem editor_edits (es : List Edit) : (arr.edits es).editor = arr.editor := by
  unfold edits
  induction es generalizing arr with
  | nil => rfl
  | cons e rest ih => exact ih (arr.edit e)

/-- Edits make no tag. -/
@[simp] theorem labels_edits (es : List Edit) : (arr.edits es).labels = arr.labels := by
  unfold edits
  induction es generalizing arr with
  | nil => rfl
  | cons e rest ih => exact ih (arr.edit e)

/-- Edits use up no tag id. -/
@[simp] theorem nextTag_edits (es : List Edit) : (arr.edits es).nextTag = arr.nextTag := by
  unfold edits
  induction es generalizing arr with
  | nil => rfl
  | cons e rest ih => exact ih (arr.edit e)

/-- Edits leave every tag under its label. -/
@[simp] theorem findTag_edits (es : List Edit) (key : String) :
    (arr.edits es).findTag key = arr.findTag key := by
  simp [findTag]

/-- A new tag gets an id that no tag has. -/
def FreshTags : Prop := ∀ id, arr.nextTag ≤ id → arr.labels.row id = none

variable {arr}

/-- Editor calls create no tag. -/
theorem FreshTags.edits (h : arr.FreshTags) (es : List Edit) : (arr.edits es).FreshTags := by
  intro id hid
  rw [labels_edits]
  exact h id (by simpa using hid)

/-- An instance numbers its tags upwards. -/
theorem FreshTags.ensureTagId (h : arr.FreshTags) (key : String) :
    (arr.ensureTagId key).1.FreshTags := by
  unfold ArrLive.ensureTagId
  split
  · exact h
  · intro id hid
    have hnext : arr.nextTag < id := lt_of_lt_of_le (arr.editor.lt_next arr.nextTag) hid
    rw [KeyedTable.row_upsert_of_ne hnext.ne']
    exact h id hnext.le

/-- **What labels an instance knows after one of them was ensured.** -/
theorem findTag_ensureTagId (h : arr.FreshTags) (key key' : String) :
    (arr.ensureTagId key).1.findTag key' =
      if key' = key then some (arr.ensureTagId key).2 else arr.findTag key' := by
  unfold ArrLive.ensureTagId
  cases hfind : arr.findTag key with
  | some id =>
      by_cases hkey : key' = key
      · simp [hkey, hfind]
      · simp [hkey]
  | none =>
      have hnew : arr.nextTag ∉ arr.labels.rows :=
        AList.lookup_eq_none.mp (h arr.nextTag (Int.le_refl _))
      have hentries : (arr.labels.upsert arr.nextTag key fun _ => key).rows.entries =
          ⟨arr.nextTag, key⟩ :: arr.labels.rows.entries := by
        rw [KeyedTable.upsert, h arr.nextTag (Int.le_refl _)]
        exact AList.entries_insert_of_notMem hnew
      by_cases hkey : key' = key
      · simp [findTag, hentries, hkey]
      · have hkey' : ¬ key = key' := fun heq => hkey heq.symm
        simp [findTag, hentries, hkey, hkey']

/-- An id is that of one label. -/
theorem findTag_inj {key key' : String} {id : Int} (h : arr.findTag key = some id)
    (h' : arr.findTag key' = some id) : key = key' := by
  have hrow : ∀ {key : String}, arr.findTag key = some id → arr.labels.row id = some key := by
    intro key hfind
    obtain ⟨entry, hentry, rfl⟩ := Option.map_eq_some_iff.mp hfind
    have htest : entry.2 = key := by simpa using List.find?_some hentry
    rw [KeyedTable.row_eq_some_iff, ← htest]
    exact List.mem_of_find?_eq_some hentry
  exact Option.some.inj ((hrow h).symm.trans (hrow h'))

/-- Making a tag touches no item. -/
theorem items_ensureTagId (key : String) : (arr.ensureTagId key).1.items = arr.items := by
  unfold ArrLive.ensureTagId
  split <;> rfl

/-- Making a tag leaves the Arr's ways as they are. -/
@[simp] theorem editor_ensureTagId (key : String) :
    (arr.ensureTagId key).1.editor = arr.editor := by
  unfold ArrLive.ensureTagId
  split <;> rfl

/-- A label that is known keeps its id. -/
theorem findTag_ensureTagId_of_some (h : arr.FreshTags) {key key' : String} {id : Int}
    (hfind : arr.findTag key' = some id) : (arr.ensureTagId key).1.findTag key' = some id := by
  rw [findTag_ensureTagId h]
  by_cases hkey : key' = key
  · subst hkey
    simp [ArrLive.ensureTagId, hfind]
  · rw [if_neg hkey, hfind]

/-- Editor calls and tag creation do not meet. -/
theorem ensureTagId_edits (es : List Edit) (key : String) :
    (arr.edits es).ensureTagId key =
      ((arr.ensureTagId key).1.edits es, (arr.ensureTagId key).2) := by
  have hitems : ∀ (arr arr' : ArrLive), arr.items = arr'.items → arr.editor = arr'.editor →
      (arr.edits es).items = (arr'.edits es).items := by
    unfold edits
    induction es with
    | nil => exact fun _ _ h _ => h
    | cons e rest ih =>
        exact fun arr arr' h heditor => ih _ _ (by simp only [edit, h, heditor]) heditor
  have hext : ∀ arr arr' : ArrLive, arr.labels = arr'.labels → arr.items = arr'.items →
      arr.nextTag = arr'.nextTag → arr.editor = arr'.editor → arr = arr' := by
    rintro ⟨_, _, _, _⟩ ⟨_, _, _, _⟩ rfl rfl rfl rfl
    rfl
  cases hfind : arr.findTag key with
  | some id => simp [ArrLive.ensureTagId, hfind]
  | none =>
      simp only [ArrLive.ensureTagId, hfind, findTag_edits, Prod.mk.injEq, nextTag_edits, and_true]
      refine hext _ _ ?_ ?_ ?_ ?_
      · simp
      · exact hitems arr _ rfl rfl
      · simp
      · simp

/-- An instance on which labels have been ensured, in order. -/
def withLabels (arr : ArrLive) (keys : List String) : ArrLive :=
  keys.foldl (fun arr key => (arr.ensureTagId key).1) arr

/-- Tags can be made before the edits or after them. -/
theorem withLabels_edits (es : List Edit) (keys : List String) :
    (arr.edits es).withLabels keys = (arr.withLabels keys).edits es := by
  unfold withLabels
  induction keys generalizing arr with
  | nil => rfl
  | cons key rest ih => rw [List.foldl_cons, ensureTagId_edits, ih, List.foldl_cons]

/-- After any tags are made, a new one still gets a new id. -/
theorem FreshTags.withLabels (h : arr.FreshTags) (keys : List String) :
    (arr.withLabels keys).FreshTags := by
  unfold ArrLive.withLabels
  induction keys generalizing arr with
  | nil => exact h
  | cons key rest ih => exact ih (h.ensureTagId key)

/-- A tag that is there keeps its id when others are made. -/
theorem findTag_withLabels_of_some (h : arr.FreshTags) {keys : List String} {key : String}
    {id : Int} (hfind : arr.findTag key = some id) :
    (arr.withLabels keys).findTag key = some id := by
  unfold withLabels
  induction keys generalizing arr with
  | nil => exact hfind
  | cons key' rest ih => exact ih (h.ensureTagId key') (findTag_ensureTagId_of_some h hfind)

/-- Every label that was ensured is known. -/
theorem isSome_findTag_withLabels (h : arr.FreshTags) {keys : List String} {key : String}
    (hkey : key ∈ keys) : ((arr.withLabels keys).findTag key).isSome = true := by
  induction keys generalizing arr with
  | nil => cases hkey
  | cons key' rest ih =>
      have hfresh := h.ensureTagId key'
      rcases List.mem_cons.mp hkey with rfl | hrest
      · have hfind : (arr.ensureTagId key).1.findTag key = some (arr.ensureTagId key).2 := by
          rw [findTag_ensureTagId h, if_pos rfl]
        rw [show (arr.withLabels (key :: rest)).findTag key = some (arr.ensureTagId key).2 from
          findTag_withLabels_of_some hfresh hfind]
        rfl
      · exact ih hfresh hrest

/-- Making tags touches no item. -/
theorem items_withLabels (keys : List String) : (arr.withLabels keys).items = arr.items := by
  unfold withLabels
  induction keys generalizing arr with
  | nil => rfl
  | cons key rest ih => rw [List.foldl_cons, ih, items_ensureTagId]

/-- Making tags leaves the Arr's ways as they are. -/
theorem editor_withLabels (keys : List String) : (arr.withLabels keys).editor = arr.editor := by
  unfold withLabels
  induction keys generalizing arr with
  | nil => rfl
  | cons key rest ih => rw [List.foldl_cons, ih, editor_ensureTagId]

/-- Labels that are known already are not created again. -/
theorem withLabels_of_known {keys : List String}
    (h : ∀ key ∈ keys, (arr.findTag key).isSome = true) : arr.withLabels keys = arr := by
  unfold withLabels
  induction keys generalizing arr with
  | nil => rfl
  | cons key rest ih =>
      obtain ⟨id, hid⟩ := Option.isSome_iff_exists.mp (h key List.mem_cons_self)
      have hsame : (arr.ensureTagId key).1 = arr := by simp [ArrLive.ensureTagId, hid]
      rw [List.foldl_cons, hsame]
      exact ih fun key' hkey' => h key' (List.mem_cons_of_mem key hkey')

end ArrLive

/-- An item carries a tag. -/
def LiveItem.hasTag (item : LiveItem) (tag : Int) : Bool := decide (tag ∈ item.tags)

/-! ## One action -/

section Phases

variable {key : String → String} {entity : Entity} {rowSets : RowSets}

/-- An item is in a set. -/
def inSet (entity : Entity) (rowSets : RowSets) (i : Int) (sense : Sense) : Bool :=
  decide (i ∈ targetIds entity sense (rowSets sense))

variable {live : KeyedTable Int LiveItem} {i : Int} {old item : LiveItem} {sense : Sense}
  {editor : ArrEditor}

/-- The items a tag action adds its label to. -/
def tagAdds (entity : Entity) (rowSets : RowSets) (sense : Sense) (tag : Int)
    (live : KeyedTable Int LiveItem) : List Int :=
  (live.selectWhere fun id item =>
    id ∈ targetIds entity sense (rowSets sense) && tag ∉ item.tags).map Prod.fst

/-- The items a tag action takes its label from. -/
def tagRemoves (entity : Entity) (rowSets : RowSets) (sense : Sense) (tag : Int)
    (live : KeyedTable Int LiveItem) : List Int :=
  (live.selectWhere fun id item =>
    !decide (searchlessLimit ≤ (rowSets sense).length) &&
      id ∉ targetIds entity sense (rowSets sense) && tag ∈ item.tags).map Prod.fst

/-- The calls of a tag action, by their ids. -/
theorem tagEdits_eq {tag : Int} :
    tagEdits entity rowSets sense tag live =
      (slices tagEditorChunk (tagAdds entity rowSets sense tag live)).map (Edit.addTag · tag) ++
        (slices tagEditorChunk (tagRemoves entity rowSets sense tag live)).map
          (Edit.removeTag · tag) := rfl

/-- The tag is added to the matches that lack it. -/
theorem mem_tagAdds {tag : Int} :
    i ∈ tagAdds entity rowSets sense tag live ↔
      ∃ old, live.row i = some old ∧ inSet entity rowSets i sense = true ∧
        old.hasTag tag = false := by
  unfold tagAdds
  rw [List.mem_map]
  constructor
  · rintro ⟨⟨i, old⟩, hmem, rfl⟩
    obtain ⟨hrow, htest⟩ := KeyedTable.mem_selectWhere_iff.mp hmem
    exact ⟨old, hrow, by simpa [inSet, LiveItem.hasTag] using htest⟩
  · rintro ⟨old, hrow, htest⟩
    have hselect : (decide (i ∈ targetIds entity sense (rowSets sense)) &&
        decide (tag ∉ old.tags)) = true := by
      simpa [inSet, LiveItem.hasTag] using htest
    exact ⟨(i, old), KeyedTable.mem_selectWhere_iff.mpr ⟨hrow, hselect⟩, rfl⟩

/-- A set that is cut at the limit spares every item it leaves out. -/
theorem mem_tagRemoves_iff {tag : Int} :
    i ∈ tagRemoves entity rowSets sense tag live ↔
      (rowSets sense).length < searchlessLimit ∧
        ∃ old, live.row i = some old ∧ inSet entity rowSets i sense = false ∧
          old.hasTag tag = true := by
  unfold tagRemoves
  rw [List.mem_map]
  constructor
  · rintro ⟨⟨i, old⟩, hmem, rfl⟩
    obtain ⟨hrow, htest⟩ := KeyedTable.mem_selectWhere_iff.mp hmem
    simp only [Bool.and_eq_true, Bool.not_eq_true', decide_eq_true_eq, decide_eq_false_iff_not,
      not_le] at htest
    exact ⟨htest.1.1, old, hrow, by simpa [inSet, LiveItem.hasTag] using ⟨htest.1.2, htest.2⟩⟩
  · rintro ⟨hwhole, old, hrow, htest⟩
    have hbelow : ¬ searchlessLimit ≤ (rowSets sense).length := by omega
    have hselect : (!decide (searchlessLimit ≤ (rowSets sense).length) &&
        decide (i ∉ targetIds entity sense (rowSets sense)) && decide (tag ∈ old.tags)) = true := by
      simpa [inSet, LiveItem.hasTag, hbelow] using htest
    exact ⟨(i, old), KeyedTable.mem_selectWhere_iff.mpr ⟨hrow, hselect⟩, rfl⟩

/-- Below the limit nothing is spared. -/
theorem mem_tagRemoves (hwhole : (rowSets sense).length < searchlessLimit) {tag : Int} :
    i ∈ tagRemoves entity rowSets sense tag live ↔
      ∃ old, live.row i = some old ∧ inSet entity rowSets i sense = false ∧
        old.hasTag tag = true := by
  rw [mem_tagRemoves_iff, and_iff_right hwhole]

variable (entity editor item) in
/-- **A tag action is a writer of its tag** on every item of the listing. -/
theorem edited_tagEdits (hwhole : (rowSets sense).length < searchlessLimit)
    (hold : live.row i = some old) (tag : Int) :
    (item.edited editor i (tagEdits entity rowSets sense tag live)).monitored = item.monitored ∧
      ∀ t, (item.edited editor i (tagEdits entity rowSets sense tag live)).hasTag t =
        if t = tag then
          writeWish (old.hasTag tag) (inSet entity rowSets i sense) (item.hasTag t)
        else item.hasTag t := by
  have hadd : (∃ chunk ∈ slices tagEditorChunk (tagAdds entity rowSets sense tag live),
      i ∈ chunk) ↔ inSet entity rowSets i sense = true ∧ old.hasTag tag = false := by
    rw [mem_slices_iff, mem_tagAdds]
    simp [hold]
  have hremove : (∃ chunk ∈ slices tagEditorChunk (tagRemoves entity rowSets sense tag live),
      i ∈ chunk) ↔ inSet entity rowSets i sense = false ∧ old.hasTag tag = true := by
    rw [mem_slices_iff, mem_tagRemoves hwhole]
    simp [hold]
  rw [tagEdits_eq, LiveItem.edited_append]
  obtain ⟨hmonitored, htags⟩ := item.edited_addTag editor i tag
    (slices tagEditorChunk (tagAdds entity rowSets sense tag live))
  obtain ⟨hmonitored', htags'⟩ := (item.edited editor i _).edited_removeTag editor i tag
    (slices tagEditorChunk (tagRemoves entity rowSets sense tag live))
  refine ⟨hmonitored'.trans hmonitored, fun t => ?_⟩
  rw [Bool.eq_iff_iff, LiveItem.hasTag, decide_eq_true_eq, htags', htags, hadd, hremove]
  by_cases htag : t = tag
  · subst htag
    rw [if_pos rfl]
    cases hset : inSet entity rowSets i sense <;> cases hhas : old.hasTag t <;>
      simp [writeWish, LiveItem.hasTag]
  · simp [htag, LiveItem.hasTag]

/-- A tag action makes no call exactly when its label is where its set is. -/
theorem tagEdits_eq_nil_iff (hwhole : (rowSets sense).length < searchlessLimit) {tag : Int} :
    tagEdits entity rowSets sense tag live = [] ↔
      ∀ i old, live.row i = some old → inSet entity rowSets i sense = old.hasTag tag := by
  rw [tagEdits_eq, List.append_eq_nil_iff, List.map_eq_nil_iff, List.map_eq_nil_iff,
    slices_eq_nil_iff, slices_eq_nil_iff, List.eq_nil_iff_forall_not_mem,
    List.eq_nil_iff_forall_not_mem]
  simp only [mem_tagAdds, mem_tagRemoves hwhole]
  constructor
  · rintro ⟨hadd, hremove⟩ i old hrow
    cases hset : inSet entity rowSets i sense <;> cases hhas : old.hasTag tag
    · rfl
    · exact absurd ⟨old, hrow, hset, hhas⟩ (hremove i)
    · exact absurd ⟨old, hrow, hset, hhas⟩ (hadd i)
    · rfl
  · intro h
    constructor
    · rintro i ⟨old, hrow, hset, hhas⟩
      rw [h i old hrow, hhas] at hset
      cases hset
    · rintro i ⟨old, hrow, hset, hhas⟩
      rw [h i old hrow, hhas] at hset
      cases hset

/-- The items a monitor action changes. -/
def monitoredChanges (entity : Entity) (rowSets : RowSets) (sense : Sense) (value : Bool)
    (live : KeyedTable Int LiveItem) : List Int :=
  ((targetIds entity sense (rowSets sense)).dedup.insertionSort (· ≤ ·)).filter
    fun id => (live.row id).any fun item => item.monitored != value

/-- The calls of a monitoring action, by their ids. -/
theorem monitoredEdits_eq {value : Bool} :
    monitoredEdits entity rowSets sense value live =
      (slices tagEditorChunk (monitoredChanges entity rowSets sense value live)).map
        (Edit.setMonitored · value) := rfl

/-- The flag is set on the matches that have the other value. -/
theorem mem_monitoredChanges {value : Bool} :
    i ∈ monitoredChanges entity rowSets sense value live ↔
      ∃ old, live.row i = some old ∧ inSet entity rowSets i sense = true ∧
        old.monitored ≠ value := by
  unfold monitoredChanges
  rw [List.mem_filter, List.mem_insertionSort, List.mem_dedup]
  cases hrow : live.row i with
  | none => simp
  | some old => simp [inSet]

variable (entity rowSets sense editor item) in
/-- **A monitor action is a writer of the flag** on the items of its set. -/
theorem edited_monitoredEdits (hold : live.row i = some old) (value : Bool) :
    (item.edited editor i (monitoredEdits entity rowSets sense value live)).tags = item.tags ∧
      (item.edited editor i (monitoredEdits entity rowSets sense value live)).monitored =
        if inSet entity rowSets i sense = true then
          writeWish old.monitored value item.monitored
        else item.monitored := by
  have hchange : (∃ chunk ∈ slices tagEditorChunk
      (monitoredChanges entity rowSets sense value live), i ∈ chunk) ↔
      inSet entity rowSets i sense = true ∧ old.monitored ≠ value := by
    rw [mem_slices_iff, mem_monitoredChanges]
    simp [hold]
  obtain ⟨htags, hmonitored⟩ := item.edited_setMonitored editor i value
    (slices tagEditorChunk (monitoredChanges entity rowSets sense value live))
  rw [monitoredEdits_eq]
  refine ⟨htags, hmonitored.trans ?_⟩
  simp only [hchange]
  by_cases hset : inSet entity rowSets i sense = true
  · by_cases hsame : old.monitored = value
    · simp [hset, hsame, writeWish]
    · have hsame' : ¬ value = old.monitored := fun heq => hsame heq.symm
      simp [hset, hsame, hsame', writeWish]
  · simp [hset]

/-- A monitor action makes no call exactly when its set has the value already. -/
theorem monitoredEdits_eq_nil_iff {value : Bool} :
    monitoredEdits entity rowSets sense value live = [] ↔
      ∀ i old, live.row i = some old → inSet entity rowSets i sense = true →
        old.monitored = value := by
  rw [monitoredEdits_eq, List.map_eq_nil_iff, slices_eq_nil_iff, List.eq_nil_iff_forall_not_mem]
  simp only [mem_monitoredChanges]
  constructor
  · intro h i old hrow hset
    by_contra hne
    exact h i ⟨old, hrow, hset, hne⟩
  · rintro h i ⟨old, hrow, hset, hne⟩
    exact hne (h i old hrow hset)

end Phases

/-! ## The actions of a rule, in order -/

section Rule

variable (key : String → String) (entity : Entity) (rowSets : RowSets)

/-- The calls of the tag actions, under the ids the labels have by the end. -/
def tagCalls (labels : String → Option Int) (live : KeyedTable Int LiveItem)
    (actions : List (String × Sense)) : List Edit :=
  actions.flatMap fun action =>
    tagEdits entity rowSets action.2 ((labels action.1).getD 0) live

/-- The calls of the monitor actions. -/
def monitoredCalls (live : KeyedTable Int LiveItem) (actions : List (Bool × Sense)) :
    List Edit :=
  actions.flatMap fun action => monitoredEdits entity rowSets action.2 action.1 live

/-- What the tag actions wish of one tag on an item that is in the given sets. -/
def tagWishes (labels : String → Option Int) (sets : Sense → Bool) (actions : List (String × Sense))
    (tag : Int) : List Bool :=
  actions.filterMap fun action =>
    if labels action.1 = some tag then some (sets action.2) else none

/-- What the monitor actions wish of the flag of an item in the given sets. -/
def monitoredWishes (sets : Sense → Bool) (actions : List (Bool × Sense)) : List Bool :=
  actions.filterMap fun action => if sets action.2 = true then some action.1 else none

/-- A tag action wishes the tag on its matches and off the others. -/
theorem mem_tagWishes {labels : String → Option Int} {sets : Sense → Bool}
    {actions : List (String × Sense)} {t : Int} {wish : Bool} :
    wish ∈ tagWishes labels sets actions t ↔
      ∃ action ∈ actions, labels action.1 = some t ∧ sets action.2 = wish := by
  simp [tagWishes, List.mem_filterMap]

/-- A monitoring action wishes its value on its matches. -/
theorem mem_monitoredWishes {sets : Sense → Bool} {actions : List (Bool × Sense)} {wish : Bool} :
    wish ∈ monitoredWishes sets actions ↔
      ∃ action ∈ actions, sets action.2 = true ∧ action.1 = wish := by
  simp [monitoredWishes, List.mem_filterMap]

/-- One tag action that goes through. -/
def tagStep (live : KeyedTable Int LiveItem) (action : String × Sense) (s : Edited) : Edited :=
  let ensured := s.arr.ensureTagId (key action.1)
  let calls := tagEdits entity rowSets action.2 ensured.2 live
  ⟨ensured.1.edits calls, s.calls ++ calls⟩

/-- One monitor action that goes through. -/
def monitoredStep (live : KeyedTable Int LiveItem) (action : Bool × Sense) (s : Edited) : Edited :=
  let calls := monitoredEdits entity rowSets action.2 action.1 live
  ⟨s.arr.edits calls, s.calls ++ calls⟩

variable {key entity rowSets}

/-- The labels an instance knows after the tag actions. -/
def ArrLive.labelled (arr : ArrLive) (key : String → String) (actions : List (String × Sense)) :
    ArrLive :=
  arr.withLabels (actions.map fun action => key action.1)

/-- Making the tags of a rule touches no item. -/
theorem ArrLive.items_labelled (arr : ArrLive) (key : String → String)
    (actions : List (String × Sense)) : (arr.labelled key actions).items = arr.items :=
  items_withLabels _

/-- Making the tags of a rule leaves the Arr's ways as they are. -/
theorem ArrLive.editor_labelled (arr : ArrLive) (key : String → String)
    (actions : List (String × Sense)) : (arr.labelled key actions).editor = arr.editor :=
  editor_withLabels _

/-- After a rule's tags are made, a new one still gets a new id. -/
theorem ArrLive.FreshTags.labelled {arr : ArrLive} (h : arr.FreshTags) (key : String → String)
    (actions : List (String × Sense)) : (arr.labelled key actions).FreshTags :=
  h.withLabels _

/-- Tag actions that go through create the missing labels and make their
calls. -/
theorem foldl_tagStep (live : KeyedTable Int LiveItem) (actions : List (String × Sense)) :
    ∀ s : Edited, s.arr.FreshTags →
      let calls := tagCalls entity rowSets
        (fun label => (s.arr.labelled key actions).findTag (key label)) live actions
      actions.foldl (fun s action => tagStep key entity rowSets live action s) s =
        ⟨(s.arr.labelled key actions).edits calls, s.calls ++ calls⟩ := by
  induction actions with
  | nil =>
      intro s _ calls
      rw [List.foldl_nil, show calls = [] from rfl, List.append_nil]
      rfl
  | cons action rest ih =>
      intro s hfresh calls
      have hlabelled : s.arr.labelled key (action :: rest) =
          (s.arr.ensureTagId (key action.1)).1.labelled key rest := rfl
      have hid : ((s.arr.ensureTagId (key action.1)).1.labelled key rest).findTag (key action.1) =
          some (s.arr.ensureTagId (key action.1)).2 := by
        apply ArrLive.findTag_withLabels_of_some (hfresh.ensureTagId _)
        rw [ArrLive.findTag_ensureTagId hfresh, if_pos rfl]
      have hcalls : calls =
          tagEdits entity rowSets action.2 (s.arr.ensureTagId (key action.1)).2 live ++
            tagCalls entity rowSets (fun label =>
              ((s.arr.ensureTagId (key action.1)).1.labelled key rest).findTag (key label))
              live rest := by
        have hfirst : ((s.arr.labelled key (action :: rest)).findTag (key action.1)).getD 0 =
            (s.arr.ensureTagId (key action.1)).2 := by
          rw [hlabelled, hid]
          rfl
        simp only [calls, tagCalls, List.flatMap_cons, hfirst]
        rw [hlabelled]
      have hstep : (tagStep key entity rowSets live action s).arr.FreshTags :=
        (hfresh.ensureTagId (key action.1)).edits _
      rw [List.foldl_cons, ih _ hstep, hcalls]
      simp only [tagStep, ArrLive.labelled, ArrLive.withLabels_edits, ArrLive.findTag_edits]
      rw [List.append_assoc]
      simp only [ArrLive.edits, List.foldl_append]
      rfl

variable (key entity rowSets) in
/-- **The tag actions**, when none breaks off. -/
theorem applyTagActions_untorn (params : RuleParams) {s : Edited} (hfresh : s.arr.FreshTags) :
    let ensured := s.arr.labelled key (tagActions params)
    let calls := tagCalls entity rowSets (fun label => ensured.findTag (key label)) s.arr.items
      (tagActions params)
    (applyTagActions key entity rowSets (fun _ => none) params s).error = none ∧
      (applyTagActions key entity rowSets (fun _ => none) params s).state =
        ⟨ensured.edits calls, s.calls ++ calls⟩ := by
  intro ensured calls
  have hloop : applyTagActions key entity rowSets (fun _ => none) params s = _ :=
    tornLoop_fold (tagStep key entity rowSets s.arr.items) (fun _ _ _ => rfl) _ 0 s
  rw [hloop]
  exact ⟨rfl, foldl_tagStep s.arr.items (tagActions params) s hfresh⟩

/-- The monitoring actions in a row make their calls in a row. -/
theorem foldl_monitoredStep (live : KeyedTable Int LiveItem) (actions : List (Bool × Sense)) :
    ∀ s : Edited,
      actions.foldl (fun s action => monitoredStep entity rowSets live action s) s =
        ⟨s.arr.edits (monitoredCalls entity rowSets live actions),
          s.calls ++ monitoredCalls entity rowSets live actions⟩ := by
  induction actions with
  | nil =>
      intro s
      rw [List.foldl_nil, show monitoredCalls entity rowSets live [] = [] from rfl,
        List.append_nil]
      rfl
  | cons action rest ih =>
      intro s
      have hcalls : monitoredCalls entity rowSets live (action :: rest) =
          monitoredEdits entity rowSets action.2 action.1 live ++
            monitoredCalls entity rowSets live rest := List.flatMap_cons
      rw [List.foldl_cons, ih, hcalls, ← List.append_assoc]
      simp only [monitoredStep, ArrLive.edits, List.foldl_append]

/-- **The monitor actions**, when none breaks off. -/
theorem applyMonitoredActions_untorn {params : RuleParams} {s : Edited} :
    (applyMonitoredActions entity rowSets (fun _ => none) params s).state =
      ⟨s.arr.edits (monitoredCalls entity rowSets s.arr.items (monitoredActions params)),
        s.calls ++ monitoredCalls entity rowSets s.arr.items (monitoredActions params)⟩ := by
  have hloop : applyMonitoredActions entity rowSets (fun _ => none) params s = _ :=
    tornLoop_fold (monitoredStep entity rowSets s.arr.items) (fun _ _ _ => rfl) _ 0 s
  rw [hloop]
  exact foldl_monitoredStep s.arr.items (monitoredActions params) s

/-! ## What is left -/

variable {live : KeyedTable Int LiveItem} {i : Int} {old : LiveItem} {editor : ArrEditor}
  {labels : String → Option Int}

variable (entity rowSets labels editor) in
/-- The tag actions write each tag by the wishes for it, and nothing else. -/
theorem edited_tagCalls (hold : live.row i = some old) {actions : List (String × Sense)}
    (hwhole : ∀ action ∈ actions, (rowSets action.2).length < searchlessLimit)
    (hknown : ∀ action ∈ actions, (labels action.1).isSome = true) :
    ∀ item : LiveItem,
      (item.edited editor i (tagCalls entity rowSets labels live actions)).monitored =
        item.monitored ∧
        ∀ t, (item.edited editor i (tagCalls entity rowSets labels live actions)).hasTag t =
          (tagWishes labels (inSet entity rowSets i) actions t).foldl
            (fun flag wish => writeWish (old.hasTag t) wish flag) (item.hasTag t) := by
  induction actions with
  | nil => exact fun item => ⟨rfl, fun t => rfl⟩
  | cons action rest ih =>
      intro item
      obtain ⟨tag, htag⟩ := Option.isSome_iff_exists.mp (hknown action List.mem_cons_self)
      obtain ⟨hmonitored, htags⟩ := edited_tagEdits entity item editor
        (hwhole action List.mem_cons_self) hold tag
      obtain ⟨hmonitored', htags'⟩ := ih (fun a ha => hwhole a (List.mem_cons_of_mem action ha))
        (fun a ha => hknown a (List.mem_cons_of_mem action ha))
        (item.edited editor i (tagEdits entity rowSets action.2 tag live))
      have hcalls : tagCalls entity rowSets labels live (action :: rest) =
          tagEdits entity rowSets action.2 tag live ++
            tagCalls entity rowSets labels live rest := by
        simp [tagCalls, htag]
      rw [hcalls, LiveItem.edited_append]
      refine ⟨hmonitored'.trans hmonitored, fun t => ?_⟩
      rw [htags', htags]
      by_cases ht : t = tag
      · subst ht
        simp [tagWishes, htag]
      · have ht' : ¬ tag = t := fun heq => ht heq.symm
        simp [tagWishes, htag, ht, ht']

variable (entity rowSets editor) in
/-- The monitor actions write the flag by the wishes for it, and nothing else. -/
theorem edited_monitoredCalls (hold : live.row i = some old) (actions : List (Bool × Sense)) :
    ∀ item : LiveItem,
      (item.edited editor i (monitoredCalls entity rowSets live actions)).tags = item.tags ∧
        (item.edited editor i (monitoredCalls entity rowSets live actions)).monitored =
          (monitoredWishes (inSet entity rowSets i) actions).foldl
            (fun flag wish => writeWish old.monitored wish flag) item.monitored := by
  induction actions with
  | nil => exact fun item => ⟨rfl, rfl⟩
  | cons action rest ih =>
      intro item
      obtain ⟨htags, hmonitored⟩ := edited_monitoredEdits entity rowSets item action.2 editor
        hold action.1
      obtain ⟨htags', hmonitored'⟩ :=
        ih (item.edited editor i (monitoredEdits entity rowSets action.2 action.1 live))
      have hcalls : monitoredCalls entity rowSets live (action :: rest) =
          monitoredEdits entity rowSets action.2 action.1 live ++
            monitoredCalls entity rowSets live rest := List.flatMap_cons
      rw [hcalls, LiveItem.edited_append]
      refine ⟨htags'.trans htags, ?_⟩
      rw [hmonitored', hmonitored]
      by_cases hset : inSet entity rowSets i action.2 = true
      · simp [monitoredWishes, hset]
      · simp [monitoredWishes, hset]

end Rule

end Nebularr
