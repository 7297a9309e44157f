import Nebularr.Candidates
import Nebularr.ChunkLoop

/-!
# Tag and monitor actions

What a rule does besides searching: it makes the items of its set, and no
others, carry a label, and gives them a monitored flag.  Both are differences
against what the instance itself lists at that moment; what the warehouse
believes of tags and flags decides nothing here.

The editor calls of one action go out in chunks and may break off between
two of them, so an action that fails leaves its first calls behind.
-/

namespace Nebularr

/-- What an instance lists of one of its items. -/
structure LiveItem where
  tags : List Int
  monitored : Bool
deriving DecidableEq, Repr

/-- A PUT on `/series/editor` or `/movie/editor`. -/
inductive Edit
  | addTag (ids : List Int) (tag : Int)
  | removeTag (ids : List Int) (tag : Int)
  | setMonitored (ids : List Int) (value : Bool)
deriving DecidableEq, Repr

/-- The other side of the calls, which is Sonarr or Radarr: what a PUT makes of
the item under an id, and the number the instance goes on with once it has given
a new tag the number `n`.  The fields say what the service relies on. -/
structure ArrEditor where
  put : Int → LiveItem → Edit → LiveItem
  next : Int → Int
  tags_addTag : ∀ id item ids tag t,
    t ∈ (put id item (.addTag ids tag)).tags ↔ t ∈ item.tags ∨ (t = tag ∧ id ∈ ids)
  tags_removeTag : ∀ id item ids tag t,
    t ∈ (put id item (.removeTag ids tag)).tags ↔ t ∈ item.tags ∧ ¬ (t = tag ∧ id ∈ ids)
  tags_setMonitored : ∀ id item ids value, (put id item (.setMonitored ids value)).tags = item.tags
  monitored_addTag : ∀ id item ids tag, (put id item (.addTag ids tag)).monitored = item.monitored
  monitored_removeTag : ∀ id item ids tag,
    (put id item (.removeTag ids tag)).monitored = item.monitored
  monitored_setMonitored : ∀ id item ids value,
    (put id item (.setMonitored ids value)).monitored = if id ∈ ids then value else item.monitored
  lt_next : ∀ n, n < next n

/-- What a call makes of an item, on an instance that appends new tags. -/
def LiveItem.apply (id : Int) (item : LiveItem) : Edit → LiveItem
  | .addTag ids tag =>
      if id ∈ ids ∧ tag ∉ item.tags then { item with tags := item.tags ++ [tag] } else item
  | .removeTag ids tag =>
      if id ∈ ids then { item with tags := item.tags.filter (· ≠ tag) } else item
  | .setMonitored ids value => if id ∈ ids then { item with monitored := value } else item

theorem LiveItem.tags_apply_addTag (id : Int) (item : LiveItem) (ids : List Int) (tag t : Int) :
    t ∈ (item.apply id (.addTag ids tag)).tags ↔ t ∈ item.tags ∨ (t = tag ∧ id ∈ ids) := by
  rw [LiveItem.apply]
  by_cases hadd : id ∈ ids ∧ tag ∉ item.tags
  · simp [hadd]
  · rw [if_neg hadd, iff_self_or]
    rintro ⟨rfl, hid⟩
    by_contra hnew
    exact hadd ⟨hid, hnew⟩

theorem LiveItem.tags_apply_removeTag (id : Int) (item : LiveItem) (ids : List Int) (tag t : Int) :
    t ∈ (item.apply id (.removeTag ids tag)).tags ↔ t ∈ item.tags ∧ ¬ (t = tag ∧ id ∈ ids) := by
  rw [LiveItem.apply]
  by_cases hid : id ∈ ids
  · simp [hid]
  · simp [hid]

theorem LiveItem.apply_setMonitored (id : Int) (item : LiveItem) (ids : List Int) (value : Bool) :
    (item.apply id (.setMonitored ids value)).tags = item.tags ∧
      (item.apply id (.setMonitored ids value)).monitored =
        if id ∈ ids then value else item.monitored := by
  rw [LiveItem.apply]
  split <;> exact ⟨rfl, rfl⟩

theorem LiveItem.monitored_apply (id : Int) (item : LiveItem) (ids : List Int) (tag : Int) :
    (item.apply id (.addTag ids tag)).monitored = item.monitored ∧
      (item.apply id (.removeTag ids tag)).monitored = item.monitored := by
  rw [LiveItem.apply, LiveItem.apply]
  constructor <;> split <;> rfl

/-- An instance that appends new tags, and numbers them one by one. -/
def ArrEditor.appending : ArrEditor where
  put := LiveItem.apply
  next n := n + 1
  tags_addTag := LiveItem.tags_apply_addTag
  tags_removeTag := LiveItem.tags_apply_removeTag
  tags_setMonitored id item ids value := (LiveItem.apply_setMonitored id item ids value).1
  monitored_addTag id item ids tag := (LiveItem.monitored_apply id item ids tag).1
  monitored_removeTag id item ids tag := (LiveItem.monitored_apply id item ids tag).2
  monitored_setMonitored id item ids value := (LiveItem.apply_setMonitored id item ids value).2
  lt_next := Int.lt_succ

/-- An instance as the editor sees it.  A tag is kept by the key labels are
compared by, `label.strip().casefold()`. -/
structure ArrLive where
  labels : KeyedTable Int String
  items : KeyedTable Int LiveItem
  nextTag : Int
  editor : ArrEditor

/-- An item after an editor call. -/
def LiveItem.edit (item : LiveItem) (editor : ArrEditor) (id : Int) (e : Edit) : LiveItem :=
  editor.put id item e

namespace ArrLive

/-- An editor call, to every item the instance lists. -/
def edit (arr : ArrLive) (e : Edit) : ArrLive :=
  { arr with items := arr.items.mapRows fun id item => item.edit arr.editor id e }

/-- Several calls, in order. -/
def edits (arr : ArrLive) (es : List Edit) : ArrLive := es.foldl edit arr

/-- `_find_tag_id`. -/
def findTag (arr : ArrLive) (key : String) : Option Int :=
  (arr.labels.rows.entries.find? fun row => row.2 = key).map Sigma.fst

/-- `ensure_tag_id`. -/
def ensureTagId (arr : ArrLive) (key : String) : ArrLive × Int :=
  match arr.findTag key with
  | some id => (arr, id)
  | none =>
      ({ arr with
          labels := arr.labels.upsert arr.nextTag key fun _ => key
          nextTag := arr.editor.next arr.nextTag }, arr.nextTag)

/-- The binds for `scope.tags_any`: unmatched labels match nothing. -/
def tagIds (arr : ArrLive) (keys : List String) : List Int :=
  let found := keys.filterMap arr.findTag
  if found = [] then [-1] else found

end ArrLive

/-- `TAG_EDITOR_CHUNK`. -/
def tagEditorChunk : ℕ+ := 100

/-- `SEARCHLESS_LIMIT`. -/
def searchlessLimit : ℕ := 10000

/-- The rows an action reads, one set for each sense the rule uses. -/
abbrev RowSets := Sense → List CandidateRow

/-- One tag action: the calls that add the label, then those that remove it.
The listing `live` is read once, before the first action of the rule. -/
def tagEdits (entity : Entity) (rowSets : RowSets) (sense : Sense) (tagId : Int)
    (live : KeyedTable Int LiveItem) : List Edit :=
  let rows := rowSets sense
  let desired := targetIds entity sense rows
  let truncated := searchlessLimit ≤ rows.length
  let add := live.selectWhere fun id item => id ∈ desired && tagId ∉ item.tags
  let remove := live.selectWhere fun id item =>
    !truncated && id ∉ desired && tagId ∈ item.tags
  (slices tagEditorChunk (add.map Prod.fst)).map (Edit.addTag · tagId) ++
    (slices tagEditorChunk (remove.map Prod.fst)).map (Edit.removeTag · tagId)

/-- One monitor action, against a listing read before the first of them. -/
def monitoredEdits (entity : Entity) (rowSets : RowSets) (sense : Sense) (value : Bool)
    (live : KeyedTable Int LiveItem) : List Edit :=
  let changed := ((targetIds entity sense (rowSets sense)).dedup.insertionSort (· ≤ ·)).filter
    fun id => (live.row id).any fun item => item.monitored != value
  (slices tagEditorChunk changed).map (Edit.setMonitored · value)

/-- What the actions of a rule have done on an instance: its state, and the
editor calls that went through. -/
structure Edited where
  arr : ArrLive
  calls : List Edit

/-- Where the calls of an action break off: after so many of them, or never. -/
abbrev Tear := ℕ → Option ℕ

section Actions

variable (key : String → String) (entity : Entity) (rowSets : RowSets) (tear : Tear)

/-- The body of the loop of `_apply_tag_actions`. -/
def applyTagAction (live : KeyedTable Int LiveItem) (n : ℕ) (action : String × Sense)
    (s : Edited) : Edited × Option String :=
  let ensured := s.arr.ensureTagId (key action.1)
  let calls := tagEdits entity rowSets action.2 ensured.2 live
  match tear n with
  | none => (⟨ensured.1.edits calls, s.calls ++ calls⟩, none)
  | some k => (⟨ensured.1.edits (calls.take k), s.calls ++ calls.take k⟩, some "request failed")

/-- The body of the loop of `_apply_monitored_actions`. -/
def applyMonitoredAction (live : KeyedTable Int LiveItem) (n : ℕ) (action : Bool × Sense)
    (s : Edited) : Edited × Option String :=
  let calls := monitoredEdits entity rowSets action.2 action.1 live
  match tear n with
  | none => (⟨s.arr.edits calls, s.calls ++ calls⟩, none)
  | some k => (⟨s.arr.edits (calls.take k), s.calls ++ calls.take k⟩, some "request failed")

/-- `[a for a in params.actions if a.type == "tag"]`. -/
def tagActions (params : RuleParams) : List (String × Sense) :=
  params.actions.filterMap fun action =>
    match action with
    | .tag label sense => some (label, sense)
    | _ => none

/-- `[a for a in params.actions if a.type == "set_monitored"]`. -/
def monitoredActions (params : RuleParams) : List (Bool × Sense) :=
  params.actions.filterMap fun action =>
    match action with
    | .setMonitored value sense => some (value, sense)
    | _ => none

/-- `_apply_tag_actions`. -/
def applyTagActions (params : RuleParams) (s : Edited) : LoopExit String Edited :=
  tornLoop (fun _ => false) (applyTagAction key entity rowSets tear s.arr.items) 0
    (tagActions params) s

/-- `_apply_monitored_actions`. -/
def applyMonitoredActions (params : RuleParams) (s : Edited) : LoopExit String Edited :=
  tornLoop (fun _ => false) (applyMonitoredAction entity rowSets tear s.arr.items) 0
    (monitoredActions params) s

end Actions

end Nebularr
