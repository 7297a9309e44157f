import Mathlib.Data.Finset.Card
import Nebularr.CoverageView
import Nebularr.EditorEffects

/-!
# The coverage tags

`CoverageTagSyncService` puts one of two tags on the items whose coverage is
full or partial, and takes both off every other item.  Four lists of ids are
read off one listing of the instance: to add the full tag, to add the partial
one, to remove either.  Each goes out in chunks, and a list whose call fails
is given up with an entry in the run's errors while the next one is tried.

So a run may leave an item with both tags or with neither.  What it leaves is
a live state like any other, and the next run starts from its listing.
-/

namespace Nebularr

/-- `apply_tags`. -/
inductive ApplyTags
  | add
  | remove
deriving DecidableEq, Repr

/-- A chunk of `update_series_tags` or `update_movie_tags`. -/
def ApplyTags.edit (tag : Int) : ApplyTags → List Int → Edit
  | .add => (Edit.addTag · tag)
  | .remove => (Edit.removeTag · tag)

/-- The `phase` of an entry in `details["errors"]`. -/
inductive CoveragePhase
  | ensureTag
  | list
  | editor (applyTags : ApplyTags)
deriving DecidableEq, Repr

/-- An entry of `details["errors"]`. -/
structure CoverageError where
  instanceName : String
  phase : CoveragePhase
  ids : List Int := []
  error : String
deriving DecidableEq, Repr

/-- The Arr calls of a run that raise; of a list of editor calls, after how
many of its chunks. -/
structure CoverageFaults where
  ensureFull : String → Option String
  ensurePartial : String → Option String
  list : String → Option String
  editor : String → ApplyTags → Int → Option (ℕ × String)

/-- Every call succeeds. -/
def CoverageFaults.clean : CoverageFaults :=
  ⟨fun _ => none, fun _ => none, fun _ => none, fun _ _ _ => none⟩

/-- What one source is reconciled against. -/
structure CoverageSync where
  labelKey : String → String
  fullLabel : String
  partialLabel : String
  integrations : List String
  namesUnique : integrations.Nodup
  targets : String → Int → Option CoverageStatus

/-- One list of ids with its tag. -/
structure CoverageCall where
  applyTags : ApplyTags
  tag : Int
  ids : List Int
deriving DecidableEq, Repr

/-- The chunks in which a list goes out. -/
def CoverageCall.edits (call : CoverageCall) : List Edit :=
  (slices tagEditorChunk call.ids).map (call.applyTags.edit call.tag)

/-- `desired_id`. -/
def desiredId (fullId partialId : Int) : Option CoverageStatus → Option Int
  | some .full => some fullId
  | some .partialCoverage => some partialId
  | some .none => none
  | none => none

section Lists

variable (live : KeyedTable Int LiveItem) (desired : Int → Option Int)

/-- `add_ids[tag]`. -/
def addIds (tag : Int) : List Int :=
  (live.selectWhere fun id item => desired id = some tag && tag ∉ item.tags).map Prod.fst

/-- `remove_ids[tag]`. -/
def removeIds (tag : Int) : List Int :=
  (live.selectWhere fun id item => tag ∈ item.tags && desired id ≠ some tag).map Prod.fst

/-- The four lists, or two when both labels are one tag. -/
def coverageCalls (fullId partialId : Int) : List CoverageCall :=
  let adds := fun tag => ⟨.add, tag, addIds live desired tag⟩
  let removes := fun tag => ⟨.remove, tag, removeIds live desired tag⟩
  [fullId, partialId].dedup.map adds ++ [fullId, partialId].dedup.map removes

end Lists

/-- Calls that went through. -/
def Edited.put (s : Edited) (calls : List Edit) : Edited := ⟨s.arr.edits calls, s.calls ++ calls⟩

/-- What the loop over the lists has reached. -/
structure BucketRun where
  edited : Edited
  updatedIds : Finset Int := ∅
  clearedIds : Finset Int := ∅
  errors : List CoverageError := []

/-- `touched.update(ids)`. -/
def BucketRun.touch (r : BucketRun) (call : CoverageCall) : BucketRun :=
  match call.applyTags with
  | .add => { r with updatedIds := r.updatedIds ∪ call.ids.toFinset }
  | .remove => { r with clearedIds := r.clearedIds ∪ call.ids.toFinset }

/-- The body of that loop. -/
def applyBucket (inst : String) (tear : ApplyTags → Int → Option (ℕ × String)) (r : BucketRun)
    (call : CoverageCall) : BucketRun :=
  if call.ids = [] then r
  else
    match tear call.applyTags call.tag with
    | none => { r with edited := r.edited.put call.edits }.touch call
    | some (sent, error) =>
        { r with
          edited := r.edited.put (call.edits.take sent)
          errors := r.errors ++ [⟨inst, .editor call.applyTags, call.ids, error⟩] }

/-- What a run reports, and how many instances it got to. -/
structure CoverageReport where
  processed : ℕ := 0
  updated : ℕ := 0
  cleared : ℕ := 0
  errors : List CoverageError := []

section Run

variable (sync : CoverageSync) (faults : CoverageFaults)

/-- The body of the loop of `_reconcile_source`: what it leaves of the
instance, and what it adds to the report. -/
def reconcileInstance (inst : String) (s : Edited) : Edited × CoverageReport :=
  match faults.ensureFull inst with
  | some error => (s, { errors := [{ instanceName := inst, phase := .ensureTag, error := error }] })
  | none =>
      let full := s.arr.ensureTagId (sync.labelKey sync.fullLabel)
      match faults.ensurePartial inst with
      | some error =>
          (⟨full.1, s.calls⟩,
            { errors := [{ instanceName := inst, phase := .ensureTag, error := error }] })
      | none =>
          let part := full.1.ensureTagId (sync.labelKey sync.partialLabel)
          match faults.list inst with
          | some error =>
              (⟨part.1, s.calls⟩,
                { errors := [{ instanceName := inst, phase := .list, error := error }] })
          | none =>
              let desired := fun id => desiredId full.2 part.2 (sync.targets inst id)
              let r := (coverageCalls part.1.items desired full.2 part.2).foldl
                (applyBucket inst (faults.editor inst)) { edited := ⟨part.1, s.calls⟩ }
              (r.edited, ⟨1, r.updatedIds.card, (r.clearedIds \ r.updatedIds).card, r.errors⟩)

/-- `details` after one more instance. -/
def CoverageReport.add (report more : CoverageReport) : CoverageReport where
  processed := report.processed + more.processed
  updated := report.updated + more.updated
  cleared := report.cleared + more.cleared
  errors := report.errors ++ more.errors

/-- `_reconcile_source`. -/
def reconcileSource (arrs : String → Edited) : (String → Edited) × CoverageReport :=
  sync.integrations.foldl
    (fun s inst =>
      let done := reconcileInstance sync faults inst (s.1 inst)
      (Function.update s.1 inst done.1, s.2.add done.2))
    (arrs, {})

end Run

/-! ## What the lists do -/

section Item

variable (editor : ArrEditor) (i : Int)

/-- Lists that add tags, on one item. -/
private theorem edited_addCalls {calls : List CoverageCall}
    (h : ∀ call ∈ calls, call.applyTags = .add) (item : LiveItem) :
    (item.edited editor i (calls.flatMap CoverageCall.edits)).monitored = item.monitored ∧
      ∀ t, t ∈ (item.edited editor i (calls.flatMap CoverageCall.edits)).tags ↔
        t ∈ item.tags ∨ ∃ call ∈ calls, call.tag = t ∧ i ∈ call.ids := by
  induction calls generalizing item with
  | nil => simp
  | cons call rest ih =>
      have hcall : call.edits = (slices tagEditorChunk call.ids).map (Edit.addTag · call.tag) := by
        rw [CoverageCall.edits, h call List.mem_cons_self]
        rfl
      obtain ⟨hmonitored, htags⟩ :=
        item.edited_addTag editor i call.tag (slices tagEditorChunk call.ids)
      obtain ⟨hmonitored', htags'⟩ := ih (fun c hc => h c (List.mem_cons_of_mem call hc))
        (item.edited editor i call.edits)
      rw [List.flatMap_cons, LiveItem.edited_append]
      refine ⟨hmonitored'.trans (by rw [hcall, hmonitored]), fun t => ?_⟩
      rw [htags', hcall, htags, mem_slices_iff]
      simp only [List.mem_cons, exists_eq_or_imp, or_assoc]
      exact or_congr_right (or_congr_left (and_congr_left fun _ => eq_comm))

/-- Lists that remove tags, on one item. -/
private theorem edited_removeCalls {calls : List CoverageCall}
    (h : ∀ call ∈ calls, call.applyTags = .remove) (item : LiveItem) :
    (item.edited editor i (calls.flatMap CoverageCall.edits)).monitored = item.monitored ∧
      ∀ t, t ∈ (item.edited editor i (calls.flatMap CoverageCall.edits)).tags ↔
        t ∈ item.tags ∧ ¬ ∃ call ∈ calls, call.tag = t ∧ i ∈ call.ids := by
  induction calls generalizing item with
  | nil => simp
  | cons call rest ih =>
      have hcall : call.edits =
          (slices tagEditorChunk call.ids).map (Edit.removeTag · call.tag) := by
        rw [CoverageCall.edits, h call List.mem_cons_self]
        rfl
      obtain ⟨hmonitored, htags⟩ :=
        item.edited_removeTag editor i call.tag (slices tagEditorChunk call.ids)
      obtain ⟨hmonitored', htags'⟩ := ih (fun c hc => h c (List.mem_cons_of_mem call hc))
        (item.edited editor i call.edits)
      rw [List.flatMap_cons, LiveItem.edited_append]
      refine ⟨hmonitored'.trans (by rw [hcall, hmonitored]), fun t => ?_⟩
      rw [htags', hcall, htags, mem_slices_iff]
      simp only [List.mem_cons, exists_eq_or_imp, not_or, and_assoc]
      exact and_congr_right fun _ => and_congr_left fun _ =>
        not_congr (and_congr_left fun _ => eq_comm)

variable {i} {live : KeyedTable Int LiveItem} {desired : Int → Option Int} {t : Int}

/-- A tag is added to the items that are to have it and do not. -/
theorem mem_addIds :
    i ∈ addIds live desired t ↔
      ∃ item, live.row i = some item ∧ desired i = some t ∧ t ∉ item.tags := by
  unfold addIds
  rw [List.mem_map]
  constructor
  · rintro ⟨⟨i, item⟩, hmem, rfl⟩
    obtain ⟨hrow, htest⟩ := KeyedTable.mem_selectWhere_iff.mp hmem
    exact ⟨item, hrow, by simpa using htest⟩
  · rintro ⟨item, hrow, htest⟩
    exact ⟨(i, item), KeyedTable.mem_selectWhere_iff.mpr ⟨hrow, by simpa using htest⟩, rfl⟩

/-- A tag is removed from the items that have it and are not to. -/
theorem mem_removeIds :
    i ∈ removeIds live desired t ↔
      ∃ item, live.row i = some item ∧ t ∈ item.tags ∧ desired i ≠ some t := by
  unfold removeIds
  rw [List.mem_map]
  constructor
  · rintro ⟨⟨i, item⟩, hmem, rfl⟩
    obtain ⟨hrow, htest⟩ := KeyedTable.mem_selectWhere_iff.mp hmem
    exact ⟨item, hrow, by simpa using htest⟩
  · rintro ⟨item, hrow, htest⟩
    exact ⟨(i, item), KeyedTable.mem_selectWhere_iff.mpr ⟨hrow, by simpa using htest⟩, rfl⟩

/-- One list for each tag. -/
private theorem exists_call_iff {op : ApplyTags} {ids : Int → List Int} {tags : List Int} :
    (∃ call ∈ tags.map fun tag => (⟨op, tag, ids tag⟩ : CoverageCall), call.tag = t ∧
      i ∈ call.ids) ↔
      t ∈ tags ∧ i ∈ ids t := by
  constructor
  · rintro ⟨call, hcall, rfl, hi⟩
    obtain ⟨tag, htag, rfl⟩ := List.mem_map.mp hcall
    exact ⟨htag, hi⟩
  · rintro ⟨htag, hi⟩
    exact ⟨_, List.mem_map_of_mem htag, rfl, hi⟩

variable (desired) in
/-- **What the lists leave on an item**: of the two tags the desired one, and
every other tag as it was. -/
theorem edited_coverageCalls {old : LiveItem} (hold : live.row i = some old)
    (fullId partialId : Int) :
    let new := old.edited editor i
      ((coverageCalls live desired fullId partialId).flatMap CoverageCall.edits)
    new.monitored = old.monitored ∧
      (∀ t, t = fullId ∨ t = partialId → (t ∈ new.tags ↔ desired i = some t)) ∧
      ∀ t, t ≠ fullId → t ≠ partialId → (t ∈ new.tags ↔ t ∈ old.tags) := by
  intro new
  let adds := [fullId, partialId].dedup.map
    fun tag => (⟨.add, tag, addIds live desired tag⟩ : CoverageCall)
  let removes := [fullId, partialId].dedup.map
    fun tag => (⟨.remove, tag, removeIds live desired tag⟩ : CoverageCall)
  have hadds : ∀ call ∈ adds, call.applyTags = .add := by
    intro call hcall
    obtain ⟨tag, -, rfl⟩ := List.mem_map.mp hcall
    rfl
  have hremoves : ∀ call ∈ removes, call.applyTags = .remove := by
    intro call hcall
    obtain ⟨tag, -, rfl⟩ := List.mem_map.mp hcall
    rfl
  have hnew : new = (old.edited editor i (adds.flatMap CoverageCall.edits)).edited editor i
      (removes.flatMap CoverageCall.edits) := by
    rw [← LiveItem.edited_append, ← List.flatMap_append]
    rfl
  obtain ⟨hmonitored, htags⟩ := edited_addCalls editor i hadds old
  obtain ⟨hmonitored', htags'⟩ :=
    edited_removeCalls editor i hremoves
      (old.edited editor i (adds.flatMap CoverageCall.edits))
  have hleft : ∀ t, t ∈ new.tags ↔
      (t ∈ old.tags ∨ ((t = fullId ∨ t = partialId) ∧ desired i = some t ∧ t ∉ old.tags)) ∧
        ¬ ((t = fullId ∨ t = partialId) ∧ t ∈ old.tags ∧ desired i ≠ some t) := by
    intro t
    rw [hnew, htags', htags, exists_call_iff, exists_call_iff, mem_addIds, mem_removeIds]
    simp [hold]
  refine ⟨by rw [hnew, hmonitored', hmonitored], fun t ht => ?_, fun t hfull hpartial => ?_⟩
  · rw [hleft]
    by_cases hdesired : desired i = some t
    · by_cases hold : t ∈ old.tags <;> simp [hold, hdesired, ht]
    · by_cases hold : t ∈ old.tags <;> simp [hold, hdesired, ht]
  · rw [hleft]
    simp [hfull, hpartial]

end Item

/-! ## One instance -/

/-- No call changes nothing. -/
@[simp] theorem Edited.put_nil (s : Edited) : s.put [] = s := by
  rw [Edited.put, List.append_nil]
  rfl

/-- Two lists of calls are made one after the other. -/
theorem Edited.put_put (s : Edited) (calls more : List Edit) :
    (s.put calls).put more = s.put (calls ++ more) := by
  simp only [Edited.put, ArrLive.edits, List.foldl_append, List.append_assoc]

/-- A list whose calls go through; an empty one makes none. -/
private theorem applyBucket_clean (inst : String) (r : BucketRun) (call : CoverageCall) :
    applyBucket inst (fun _ _ => none) r call =
      { r with edited := r.edited.put call.edits }.touch call := by
  by_cases hnone : call.ids = []
  · rw [applyBucket, if_pos hnone, CoverageCall.edits, hnone, slices_nil, List.map_nil,
      Edited.put_nil, BucketRun.touch]
    cases call.applyTags <;> simp [hnone]
  · rw [applyBucket, if_neg hnone]

/-- **The loop over the lists**, when every call goes through. -/
private theorem foldl_applyBucket_clean (inst : String) (calls : List CoverageCall) :
    ∀ r : BucketRun, let done := calls.foldl (applyBucket inst fun _ _ => none) r
      done.edited = r.edited.put (calls.flatMap CoverageCall.edits) ∧ done.errors = r.errors ∧
        (∀ i, i ∈ done.updatedIds ↔
          i ∈ r.updatedIds ∨ ∃ call ∈ calls, call.applyTags = .add ∧ i ∈ call.ids) ∧
        ∀ i, i ∈ done.clearedIds ↔
          i ∈ r.clearedIds ∨ ∃ call ∈ calls, call.applyTags = .remove ∧ i ∈ call.ids := by
  induction calls with
  | nil => simp
  | cons call rest ih =>
      intro r done
      obtain ⟨hedited, herrors, hupdated, hcleared⟩ :=
        ih ({ r with edited := r.edited.put call.edits }.touch call)
      rw [← applyBucket_clean inst r call] at hedited herrors hupdated hcleared
      have hdone : done = rest.foldl (applyBucket inst fun _ _ => none)
        (applyBucket inst (fun _ _ => none) r call) := rfl
      rw [← hdone] at hedited herrors hupdated hcleared
      rw [applyBucket_clean, BucketRun.touch] at hedited herrors hupdated hcleared
      cases hop : call.applyTags with
      | add =>
          simp only [hop] at hedited herrors hupdated hcleared
          refine ⟨?_, herrors, fun i => ?_, fun i => ?_⟩
          · rw [hedited, Edited.put_put, List.flatMap_cons]
          · simp [hupdated, hop, or_assoc]
          · simp [hcleared, hop]
      | remove =>
          simp only [hop] at hedited herrors hupdated hcleared
          refine ⟨?_, herrors, fun i => ?_, fun i => ?_⟩
          · rw [hedited, Edited.put_put, List.flatMap_cons]
          · simp [hupdated, hop]
          · simp [hcleared, hop, or_assoc]

/-- The items an instance lists. -/
def listedIds (arr : ArrLive) : Finset Int := (arr.items.rows.entries.map Sigma.fst).toFinset

/-- An item has a tag that it did not have. -/
def gainedTag (before after : ArrLive) (i : Int) : Bool :=
  (after.items.row i).any fun new => new.tags.any fun t =>
    (before.items.row i).all fun old => !old.hasTag t

/-- The items that gained a tag. -/
def gainedItems (before after : ArrLive) : Finset Int :=
  (listedIds after).filter fun i => gainedTag before after i = true

/-- The items that lost a tag and gained none. -/
def clearedItems (before after : ArrLive) : Finset Int :=
  (listedIds before).filter fun i =>
    gainedTag after before i = true ∧ gainedTag before after i = false

/-- The listed ids are those of the Arr's items. -/
theorem mem_listedIds {arr : ArrLive} {i : Int} :
    i ∈ listedIds arr ↔ ∃ item, arr.items.row i = some item := by
  rw [listedIds, List.mem_toFinset, List.mem_map]
  constructor
  · rintro ⟨entry, hentry, rfl⟩
    exact ⟨entry.2, KeyedTable.row_eq_some_iff.mpr hentry⟩
  · rintro ⟨item, hrow⟩
    exact ⟨_, KeyedTable.row_eq_some_iff.mp hrow, rfl⟩

/-- An item gained a tag if it has one that it had not. -/
theorem gainedTag_iff {before after : ArrLive} {i : Int} {old new : LiveItem}
    (hold : before.items.row i = some old) (hnew : after.items.row i = some new) :
    gainedTag before after i = true ↔ ∃ t, t ∈ new.tags ∧ t ∉ old.tags := by
  simp [gainedTag, hold, hnew, LiveItem.hasTag]

/-- The coverage tags an item is to have: the full one, the partial one or none.
Labels that are one tag on the instance exclude nothing. -/
def SettledTags (fullId partialId : Int) (coverage : Option CoverageStatus) (tags : List Int) :
    Prop :=
  match coverage with
  | some .full => fullId ∈ tags ∧ (fullId ≠ partialId → partialId ∉ tags)
  | some .partialCoverage => partialId ∈ tags ∧ (fullId ≠ partialId → fullId ∉ tags)
  | some .none | none => fullId ∉ tags ∧ partialId ∉ tags

/-- They are what the code asks for under `desired_id`. -/
theorem settledTags_iff {fullId partialId : Int} {coverage : Option CoverageStatus}
    {tags : List Int} :
    SettledTags fullId partialId coverage tags ↔ ∀ t, t = fullId ∨ t = partialId →
      (t ∈ tags ↔ desiredId fullId partialId coverage = some t) := by
  rcases coverage with _ | _ | _ | _ <;>
    simp only [SettledTags, desiredId, forall_eq_or_imp, forall_eq, Option.some.injEq,
      iff_true, reduceCtorEq, iff_false]
  · grind
  · grind

/-- An instance has the coverage tags it is to have, and is otherwise what it
was. -/
structure CoverageExact (sync : CoverageSync) (inst : String) (fullId partialId : Int)
    (before after : ArrLive) : Prop where
  full : after.findTag (sync.labelKey sync.fullLabel) = some fullId
  part : after.findTag (sync.labelKey sync.partialLabel) = some partialId
  /-- Labels that differ up to case are two tags. -/
  apart : sync.labelKey sync.fullLabel ≠ sync.labelKey sync.partialLabel → fullId ≠ partialId
  kept : ∀ i, (after.items.row i).isSome = (before.items.row i).isSome
  /-- Of the two tags an item has the desired one, or neither. -/
  settled : ∀ i old new, before.items.row i = some old → after.items.row i = some new →
    new.monitored = old.monitored ∧
      SettledTags fullId partialId (sync.targets inst i) new.tags ∧
      ∀ t, t ≠ fullId → t ≠ partialId → (t ∈ new.tags ↔ t ∈ old.tags)

section Instance

variable (sync : CoverageSync) (inst : String) {s : Edited}

/-- The instance once both labels are known, with their ids. -/
private def ensuredLabels (s : Edited) : ArrLive × Int × Int :=
  let full := s.arr.ensureTagId (sync.labelKey sync.fullLabel)
  let part := full.1.ensureTagId (sync.labelKey sync.partialLabel)
  (part.1, full.2, part.2)

/-- The lists of an instance. -/
private def instanceCalls (s : Edited) : List CoverageCall :=
  let ensured := ensuredLabels sync s
  coverageCalls ensured.1.items (fun id => desiredId ensured.2.1 ensured.2.2 (sync.targets inst id))
    ensured.2.1 ensured.2.2

/-- Making the tags touches no item. -/
private theorem items_ensuredLabels : (ensuredLabels sync s).1.items = s.arr.items := by
  rw [ensuredLabels, ArrLive.items_ensureTagId, ArrLive.items_ensureTagId]

/-- Making the tags leaves the Arr's ways as they are. -/
private theorem editor_ensuredLabels : (ensuredLabels sync s).1.editor = s.arr.editor := by
  rw [ensuredLabels, ArrLive.editor_ensureTagId, ArrLive.editor_ensureTagId]

/-- **One instance**, when every call succeeds. -/
private theorem reconcileInstance_clean (s : Edited) :
    let done := reconcileInstance sync .clean inst s
    done.1 = (⟨(ensuredLabels sync s).1, s.calls⟩ : Edited).put
        ((instanceCalls sync inst s).flatMap CoverageCall.edits) ∧
      done.2.processed = 1 ∧ done.2.errors = [] ∧
      ∃ updatedIds clearedIds : Finset Int,
        done.2.updated = updatedIds.card ∧ done.2.cleared = (clearedIds \ updatedIds).card ∧
        (∀ i, i ∈ updatedIds ↔
          ∃ call ∈ instanceCalls sync inst s, call.applyTags = .add ∧ i ∈ call.ids) ∧
        ∀ i, i ∈ clearedIds ↔
          ∃ call ∈ instanceCalls sync inst s, call.applyTags = .remove ∧ i ∈ call.ids := by
  intro done
  let r := (instanceCalls sync inst s).foldl (applyBucket inst fun _ _ => none)
    { edited := ⟨(ensuredLabels sync s).1, s.calls⟩ }
  have hdone : done =
      (r.edited, ⟨1, r.updatedIds.card, (r.clearedIds \ r.updatedIds).card, r.errors⟩) := rfl
  obtain ⟨hedited, herrors, hupdated, hcleared⟩ := foldl_applyBucket_clean inst
    (instanceCalls sync inst s) { edited := ⟨(ensuredLabels sync s).1, s.calls⟩ }
  rw [hdone]
  exact ⟨hedited, rfl, herrors, r.updatedIds, r.clearedIds, rfl, rfl,
    fun i => (hupdated i).trans (by simp), fun i => (hcleared i).trans (by simp)⟩

/-- The lists name the items that lack their tag, and those that have one they
should not have. -/
private theorem exists_instanceCall_iff {live : KeyedTable Int LiveItem}
    {desired : Int → Option Int}
    {fullId partialId i : Int} :
    ((∃ call ∈ coverageCalls live desired fullId partialId,
        call.applyTags = .add ∧ i ∈ call.ids) ↔
      ∃ old, live.row i = some old ∧ ∃ t, (t = fullId ∨ t = partialId) ∧
        desired i = some t ∧ t ∉ old.tags) ∧
    ((∃ call ∈ coverageCalls live desired fullId partialId,
        call.applyTags = .remove ∧ i ∈ call.ids) ↔
      ∃ old, live.row i = some old ∧ ∃ t, (t = fullId ∨ t = partialId) ∧
        t ∈ old.tags ∧ desired i ≠ some t) := by
  constructor
  · constructor
    · rintro ⟨call, hcall, hop, hi⟩
      rcases List.mem_append.mp hcall with hcall | hcall
      · obtain ⟨t, ht, rfl⟩ := List.mem_map.mp hcall
        obtain ⟨old, hold, hdesired⟩ := mem_addIds.mp hi
        exact ⟨old, hold, t, by simpa using ht, hdesired⟩
      · obtain ⟨t, -, rfl⟩ := List.mem_map.mp hcall
        cases hop
    · rintro ⟨old, hold, t, ht, hdesired⟩
      exact ⟨_, List.mem_append_left _ (List.mem_map_of_mem (by simpa using ht)), rfl,
        mem_addIds.mpr ⟨old, hold, hdesired⟩⟩
  · constructor
    · rintro ⟨call, hcall, hop, hi⟩
      rcases List.mem_append.mp hcall with hcall | hcall
      · obtain ⟨t, -, rfl⟩ := List.mem_map.mp hcall
        cases hop
      · obtain ⟨t, ht, rfl⟩ := List.mem_map.mp hcall
        obtain ⟨old, hold, hdesired⟩ := mem_removeIds.mp hi
        exact ⟨old, hold, t, by simpa using ht, hdesired⟩
    · rintro ⟨old, hold, t, ht, hdesired⟩
      exact ⟨_, List.mem_append_right _ (List.mem_map_of_mem (by simpa using ht)), rfl,
        mem_removeIds.mpr ⟨old, hold, hdesired⟩⟩

/-- **One instance is reconciled**: it ends with its desired tags. -/
theorem coverageExact_reconcileInstance (hfresh : s.arr.FreshTags) :
    CoverageExact sync inst (ensuredLabels sync s).2.1 (ensuredLabels sync s).2.2 s.arr
      (reconcileInstance sync .clean inst s).1.arr := by
  have hfull := ArrLive.findTag_ensureTagId hfresh (sync.labelKey sync.fullLabel)
    (sync.labelKey sync.fullLabel)
  rw [if_pos rfl] at hfull
  have hfresh' := hfresh.ensureTagId (sync.labelKey sync.fullLabel)
  have hfull' : (ensuredLabels sync s).1.findTag (sync.labelKey sync.fullLabel) =
      some (ensuredLabels sync s).2.1 := ArrLive.findTag_ensureTagId_of_some hfresh' hfull
  have hpart : (ensuredLabels sync s).1.findTag (sync.labelKey sync.partialLabel) =
      some (ensuredLabels sync s).2.2 := by
    have hensured := ArrLive.findTag_ensureTagId hfresh' (sync.labelKey sync.partialLabel)
      (sync.labelKey sync.partialLabel)
    rwa [if_pos rfl] at hensured
  rw [(reconcileInstance_clean sync inst s).1]
  refine ⟨?_, ?_, ?_, fun i => ?_, fun i old new hold hnew => ?_⟩
  · rw [Edited.put, ArrLive.findTag_edits]
    exact hfull'
  · rw [Edited.put, ArrLive.findTag_edits]
    exact hpart
  · intro hne heq
    refine hne (ArrLive.findTag_inj hfull' ?_)
    rw [hpart]
    exact congrArg some heq.symm
  · rw [Edited.put, ArrLive.row_edits, items_ensuredLabels, Option.isSome_map]
  · rw [Edited.put, ArrLive.row_edits, items_ensuredLabels, hold, Option.map_some,
      Option.some.injEq] at hnew
    subst hnew
    rw [instanceCalls, items_ensuredLabels, editor_ensuredLabels]
    obtain ⟨hmonitored, hcoverage, hothers⟩ := edited_coverageCalls s.arr.editor
      (fun id => desiredId (ensuredLabels sync s).2.1 (ensuredLabels sync s).2.2
        (sync.targets inst id)) hold (ensuredLabels sync s).2.1 (ensuredLabels sync s).2.2
    exact ⟨hmonitored, settledTags_iff.mpr hcoverage, hothers⟩

variable {sync inst} {fullId partialId : Int} {before after : ArrLive}

/-- No item goes. -/
theorem CoverageExact.exists_new (h : CoverageExact sync inst fullId partialId before after)
    {i : Int} {old : LiveItem} (hold : before.items.row i = some old) :
    ∃ new, after.items.row i = some new := by
  have hkept := h.kept i
  rw [hold, Option.isSome_some] at hkept
  exact Option.isSome_iff_exists.mp hkept

/-- No item comes. -/
theorem CoverageExact.exists_old (h : CoverageExact sync inst fullId partialId before after)
    {i : Int} {new : LiveItem} (hnew : after.items.row i = some new) :
    ∃ old, before.items.row i = some old := by
  have hkept := h.kept i
  rw [hnew, Option.isSome_some, eq_comm] at hkept
  exact Option.isSome_iff_exists.mp hkept

/-- The items of the add lists are those that gained a tag. -/
theorem CoverageExact.mem_gainedItems_iff
    (h : CoverageExact sync inst fullId partialId before after) {i : Int} :
    i ∈ gainedItems before after ↔ ∃ old, before.items.row i = some old ∧
      ∃ t, (t = fullId ∨ t = partialId) ∧
        desiredId fullId partialId (sync.targets inst i) = some t ∧ t ∉ old.tags := by
  rw [gainedItems, Finset.mem_filter, mem_listedIds]
  constructor
  · rintro ⟨⟨new, hnew⟩, hgained⟩
    obtain ⟨old, hold⟩ := h.exists_old hnew
    obtain ⟨-, hcoverage, hothers⟩ := h.settled i old new hold hnew
    obtain ⟨t, hnow, hbefore⟩ := (gainedTag_iff hold hnew).mp hgained
    have ht : t = fullId ∨ t = partialId := by
      by_contra hneither
      rw [not_or] at hneither
      exact hbefore ((hothers t hneither.1 hneither.2).mp hnow)
    exact ⟨old, hold, t, ht, (settledTags_iff.mp hcoverage t ht).mp hnow, hbefore⟩
  · rintro ⟨old, hold, t, ht, hdesired, hbefore⟩
    obtain ⟨new, hnew⟩ := h.exists_new hold
    obtain ⟨-, hcoverage, -⟩ := h.settled i old new hold hnew
    exact ⟨⟨new, hnew⟩,
      (gainedTag_iff hold hnew).mpr ⟨t, (settledTags_iff.mp hcoverage t ht).mpr hdesired, hbefore⟩⟩

/-- The items of the remove lists, unless they gained a tag, are those that
only lost one. -/
theorem CoverageExact.mem_clearedItems_iff
    (h : CoverageExact sync inst fullId partialId before after) {i : Int} :
    i ∈ clearedItems before after ↔ (∃ old, before.items.row i = some old ∧
      ∃ t, (t = fullId ∨ t = partialId) ∧ t ∈ old.tags ∧
        desiredId fullId partialId (sync.targets inst i) ≠ some t) ∧
      i ∉ gainedItems before after := by
  rw [clearedItems, Finset.mem_filter, mem_listedIds, gainedItems, Finset.mem_filter, mem_listedIds]
  constructor
  · rintro ⟨⟨old, hold⟩, hlost, hgained⟩
    refine ⟨⟨old, hold, ?_⟩, fun hmem => by rw [hgained] at hmem; cases hmem.2⟩
    obtain ⟨new, hnew⟩ := h.exists_new hold
    obtain ⟨-, hcoverage, hothers⟩ := h.settled i old new hold hnew
    obtain ⟨t, hbefore, hnow⟩ := (gainedTag_iff hnew hold).mp hlost
    have ht : t = fullId ∨ t = partialId := by
      by_contra hneither
      rw [not_or] at hneither
      exact hnow ((hothers t hneither.1 hneither.2).mpr hbefore)
    exact ⟨t, ht, hbefore, fun hdesired => hnow ((settledTags_iff.mp hcoverage t ht).mpr hdesired)⟩
  · rintro ⟨⟨old, hold, t, ht, hbefore, hdesired⟩, hgained⟩
    obtain ⟨new, hnew⟩ := h.exists_new hold
    obtain ⟨-, hcoverage, -⟩ := h.settled i old new hold hnew
    refine ⟨⟨old, hold⟩, (gainedTag_iff hnew hold).mpr
      ⟨t, hbefore, fun hnow => hdesired ((settledTags_iff.mp hcoverage t ht).mp hnow)⟩, ?_⟩
    rw [← Bool.not_eq_true]
    exact fun hgain => hgained ⟨⟨new, hnew⟩, hgain⟩

/-- **The report counts what changed.** -/
theorem report_reconcileInstance (hfresh : s.arr.FreshTags) :
    let done := reconcileInstance sync .clean inst s
    done.2 =
      ⟨1, (gainedItems s.arr done.1.arr).card, (clearedItems s.arr done.1.arr).card, []⟩ := by
  intro done
  have hexact := coverageExact_reconcileInstance sync inst hfresh
  obtain ⟨-, hprocessed, herrors, updatedIds, clearedIds, hupdated, hcleared, hadds, hremoves⟩ :=
    reconcileInstance_clean sync inst s
  have hgained : updatedIds = gainedItems s.arr done.1.arr := by
    apply Finset.ext
    intro i
    rw [hadds, hexact.mem_gainedItems_iff, instanceCalls, items_ensuredLabels]
    exact exists_instanceCall_iff.1
  have hlost : clearedIds \ updatedIds = clearedItems s.arr done.1.arr := by
    apply Finset.ext
    intro i
    rw [Finset.mem_sdiff, hexact.mem_clearedItems_iff, hgained, hremoves, instanceCalls,
      items_ensuredLabels]
    exact and_congr_left fun _ => exists_instanceCall_iff.2
  rw [hgained] at hupdated
  rw [hlost] at hcleared
  have hext : ∀ r : CoverageReport, r = ⟨r.processed, r.updated, r.cleared, r.errors⟩ :=
    fun _ => rfl
  rw [hext done.2, hprocessed, hupdated, hcleared, herrors]

/-- **An instance that has its tags is left alone.** -/
theorem reconcileInstance_again {arr : ArrLive} {calls : List Edit}
    (h : CoverageExact sync inst fullId partialId before arr) :
    (reconcileInstance sync .clean inst ⟨arr, calls⟩).1 = ⟨arr, calls⟩ := by
  have hensured : ensuredLabels sync ⟨arr, calls⟩ = (arr, fullId, partialId) := by
    have hfull : arr.ensureTagId (sync.labelKey sync.fullLabel) = (arr, fullId) := by
      rw [ArrLive.ensureTagId, h.full]
    have hpart : arr.ensureTagId (sync.labelKey sync.partialLabel) = (arr, partialId) := by
      rw [ArrLive.ensureTagId, h.part]
    rw [ensuredLabels, hfull, hpart]
  have hnone : (instanceCalls sync inst ⟨arr, calls⟩).flatMap CoverageCall.edits = [] := by
    rw [List.flatMap_eq_nil_iff]
    intro call hcall
    rw [instanceCalls, hensured] at hcall
    have hempty : call.ids = [] := by
      rw [List.eq_nil_iff_forall_not_mem]
      intro i hi
      cases hop : call.applyTags with
      | add =>
          obtain ⟨new, hnew, t, ht, hdesired, hlacks⟩ :=
            exists_instanceCall_iff.1.mp ⟨call, hcall, hop, hi⟩
          obtain ⟨old, hold⟩ := h.exists_old hnew
          exact hlacks ((settledTags_iff.mp (h.settled i old new hold hnew).2.1 t ht).mpr hdesired)
      | remove =>
          obtain ⟨new, hnew, t, ht, hhas, hdesired⟩ :=
            exists_instanceCall_iff.2.mp ⟨call, hcall, hop, hi⟩
          obtain ⟨old, hold⟩ := h.exists_old hnew
          exact hdesired ((settledTags_iff.mp (h.settled i old new hold hnew).2.1 t ht).mp hhas)
    rw [CoverageCall.edits, hempty, slices_nil, List.map_nil]
  rw [(reconcileInstance_clean sync inst ⟨arr, calls⟩).1, hnone, Edited.put_nil, hensured]

end Instance

/-! ## Runs that fail -/

/-- The loop over the lists only makes editor calls, whatever fails. -/
private theorem foldl_applyBucket_edits (inst : String)
    (tear : ApplyTags → Int → Option (ℕ × String)) (calls : List CoverageCall) :
    ∀ r : BucketRun, ∃ made,
      (calls.foldl (applyBucket inst tear) r).edited = r.edited.put made := by
  induction calls with
  | nil => exact fun r => ⟨[], (Edited.put_nil r.edited).symm⟩
  | cons call rest ih =>
      intro r
      obtain ⟨made, hmade⟩ := ih (applyBucket inst tear r call)
      have hone : ∃ sent, (applyBucket inst tear r call).edited = r.edited.put sent := by
        unfold applyBucket
        split
        · exact ⟨[], (Edited.put_nil r.edited).symm⟩
        · split
          · refine ⟨call.edits, ?_⟩
            unfold BucketRun.touch
            split <;> rfl
          · exact ⟨_, rfl⟩
      obtain ⟨sent, hsent⟩ := hone
      exact ⟨sent ++ made, by rw [List.foldl_cons, hmade, hsent, Edited.put_put]⟩

/-- **A run that fails anywhere leaves an instance that the next one can heal.** -/
theorem freshTags_reconcileInstance (sync : CoverageSync) (faults : CoverageFaults)
    (inst : String) {s : Edited} (hfresh : s.arr.FreshTags) :
    (reconcileInstance sync faults inst s).1.arr.FreshTags := by
  have hfull := hfresh.ensureTagId (sync.labelKey sync.fullLabel)
  have hpart := hfull.ensureTagId (sync.labelKey sync.partialLabel)
  unfold reconcileInstance
  split
  · exact hfresh
  · split
    · exact hfull
    · split
      · exact hpart
      · let r := (instanceCalls sync inst s).foldl (applyBucket inst (faults.editor inst))
          { edited := ⟨(ensuredLabels sync s).1, s.calls⟩ }
        have hleft : r.edited.arr.FreshTags := by
          obtain ⟨made, hmade⟩ := foldl_applyBucket_edits inst (faults.editor inst)
            (instanceCalls sync inst s) { edited := ⟨(ensuredLabels sync s).1, s.calls⟩ }
          rw [show r.edited = _ from hmade]
          exact hpart.edits made
        exact hleft

/-! ## All instances of a source -/

section Source

variable (sync : CoverageSync)

/-- Instances do not meet: the loop does to each what it does to it alone, and
adds up what it reports. -/
private theorem foldl_reconcileInstance (faults : CoverageFaults) {names : List String}
    (hunique : names.Nodup) : ∀ (arrs : String → Edited) (report : CoverageReport),
      let done := names.foldl
        (fun s inst =>
          let done := reconcileInstance sync faults inst (s.1 inst)
          (Function.update s.1 inst done.1, CoverageReport.add s.2 done.2)) (arrs, report)
      (∀ inst, done.1 inst = if inst ∈ names then (reconcileInstance sync faults inst (arrs inst)).1
        else arrs inst) ∧
      done.2 = names.foldl
        (fun report inst =>
          report.add (reconcileInstance sync faults inst (arrs inst)).2) report := by
  induction names with
  | nil => simp
  | cons name rest ih =>
      intro arrs report done
      obtain ⟨hnew, hrest⟩ := List.nodup_cons.mp hunique
      obtain ⟨hleft, hreport⟩ := ih hrest
        (Function.update arrs name (reconcileInstance sync faults name (arrs name)).1)
        (report.add (reconcileInstance sync faults name (arrs name)).2)
      refine ⟨fun inst => ?_, ?_⟩
      · refine (hleft inst).trans ?_
        by_cases hname : inst = name
        · subst hname
          simp [hnew]
        · simp [hname]
      · refine hreport.trans (List.foldl_ext _ _ _ fun report inst hinst => ?_)
        rw [Function.update_of_ne (ne_of_mem_of_not_mem hinst hnew)]

/-- Reports of clean instances add up. -/
private theorem foldl_add_clean (counts : String → ℕ × ℕ) (names : List String) :
    ∀ report : CoverageReport,
      names.foldl (fun report inst =>
          report.add ⟨1, (counts inst).1, (counts inst).2, []⟩) report =
        ⟨report.processed + names.length,
          report.updated + (names.map fun inst => (counts inst).1).sum,
          report.cleared + (names.map fun inst => (counts inst).2).sum, report.errors⟩ := by
  induction names with
  | nil => exact fun report => rfl
  | cons name rest ih =>
      intro report
      rw [List.foldl_cons, ih]
      simp only [CoverageReport.add, List.length_cons, List.map_cons, List.sum_cons,
        List.append_nil, CoverageReport.mk.injEq, and_true]
      refine ⟨?_, ?_, ?_⟩ <;> omega

/-- **Coverage tags are exclusive and heal**: from any live state, a run in
which every call succeeds leaves each item with the tag it should have, reports
the items it changed, and leaves the next run nothing to do. -/
theorem coverage_tags_heal (arrs : String → Edited)
    (hfresh : ∀ inst ∈ sync.integrations, (arrs inst).arr.FreshTags) :
    let after := reconcileSource sync .clean arrs
    (∀ inst ∈ sync.integrations, ∃ fullId partialId,
        CoverageExact sync inst fullId partialId (arrs inst).arr (after.1 inst).arr) ∧
      after.2.updated =
        (sync.integrations.map fun inst =>
          (gainedItems (arrs inst).arr (after.1 inst).arr).card).sum ∧
      after.2.cleared =
        (sync.integrations.map fun inst =>
          (clearedItems (arrs inst).arr (after.1 inst).arr).card).sum ∧
      after.2.errors = [] ∧
      (reconcileSource sync .clean after.1).1 = after.1 := by
  intro after
  obtain ⟨hleft, hreport⟩ := foldl_reconcileInstance sync .clean sync.namesUnique arrs {}
  have hone : ∀ inst ∈ sync.integrations,
      after.1 inst = (reconcileInstance sync .clean inst (arrs inst)).1 := by
    intro inst hinst
    rw [show after.1 inst = _ from hleft inst, if_pos hinst]
  have hexact : ∀ inst ∈ sync.integrations, ∃ fullId partialId,
      CoverageExact sync inst fullId partialId (arrs inst).arr (after.1 inst).arr := by
    intro inst hinst
    rw [hone inst hinst]
    exact ⟨_, _, coverageExact_reconcileInstance sync inst (hfresh inst hinst)⟩
  have hcounts : after.2 = ⟨sync.integrations.length,
      (sync.integrations.map fun inst =>
        (gainedItems (arrs inst).arr (after.1 inst).arr).card).sum,
      (sync.integrations.map fun inst =>
        (clearedItems (arrs inst).arr (after.1 inst).arr).card).sum, []⟩ := by
    have hadd := foldl_add_clean
      (fun inst => ((gainedItems (arrs inst).arr (after.1 inst).arr).card,
      (clearedItems (arrs inst).arr (after.1 inst).arr).card)) sync.integrations {}
    simp only [Nat.zero_add] at hadd
    refine (Eq.trans hreport (List.foldl_ext _ _ _ fun report inst hinst => ?_)).trans hadd
    rw [report_reconcileInstance (hfresh inst hinst), ← hone inst hinst]
  refine ⟨hexact, by rw [hcounts], by rw [hcounts], by rw [hcounts], ?_⟩
  funext inst
  refine ((foldl_reconcileInstance sync .clean sync.namesUnique after.1 {}).1 inst).trans ?_
  by_cases hinst : inst ∈ sync.integrations
  · obtain ⟨fullId, partialId, hinstance⟩ := hexact inst hinst
    rw [if_pos hinst]
    exact reconcileInstance_again hinstance
  · rw [if_neg hinst]

end Source

/-- One Sonarr, on which series 5 is covered in full, series 6 in part and
series 7 not at all. -/
def threeSeries : CoverageSync where
  labelKey := id
  fullLabel := "fully-english"
  partialLabel := "partial-english"
  integrations := ["default"]
  namesUnique := by simp
  targets := fun _ id =>
    if id = 5 then some .full
    else if id = 6 then some .partialCoverage
    else if id = 7 then some .none
    else none

/-- An instance on which an earlier run left series 5 with both tags, and series
7 with one. -/
def bothTagsLeft : ArrLive :=
  ⟨(KeyedTable.empty.upsert 1 "fully-english" id).upsert 2 "partial-english" id,
    ((KeyedTable.empty.upsert 5 ⟨[1, 2, 9], true⟩ id).upsert 6 ⟨[9], true⟩ id).upsert 7
      ⟨[2], false⟩ id, 3, .appending⟩

/-- A tag to come gets a new id. -/
private theorem freshTags_bothTagsLeft : bothTagsLeft.FreshTags := by
  intro id hid
  have hlater : (3 : Int) ≤ id := hid
  rw [bothTagsLeft, KeyedTable.row_upsert_of_ne (by omega), KeyedTable.row_upsert_of_ne (by omega),
    KeyedTable.row_empty]

/-- Series 5 keeps the full tag, series 6 gains the partial one and series 7 loses
it; the report counts one as updated and two as cleared. -/
theorem coverage_tags_heal_bothTags :
    let after := reconcileSource threeSeries .clean fun _ => ⟨bothTagsLeft, []⟩
    let tags := fun id => ((after.1 "default").arr.items.row id).map LiveItem.tags
    (∃ five six seven, tags 5 = some five ∧ tags 6 = some six ∧ tags 7 = some seven ∧
      (1 ∈ five ∧ 2 ∉ five ∧ 9 ∈ five) ∧ (2 ∈ six ∧ 1 ∉ six ∧ 9 ∈ six) ∧
      (1 ∉ seven ∧ 2 ∉ seven)) ∧
      after.2.updated = 1 ∧ after.2.cleared = 2 ∧
      (reconcileSource threeSeries .clean after.1).1 = after.1 := by
  intro after tags
  obtain ⟨hexact, hupdated, hcleared, -, hagain⟩ := coverage_tags_heal threeSeries
    (fun _ => ⟨bothTagsLeft, []⟩) fun _ _ => freshTags_bothTagsLeft
  obtain ⟨fullId, partialId, hinstance⟩ := hexact "default" (by decide)
  obtain rfl : fullId = 1 := Option.some.inj (hinstance.full.symm.trans (by decide))
  obtain rfl : partialId = 2 := Option.some.inj (hinstance.part.symm.trans (by decide))
  have hfive : bothTagsLeft.items.row 5 = some ⟨[1, 2, 9], true⟩ := by decide
  have hsix : bothTagsLeft.items.row 6 = some ⟨[9], true⟩ := by decide
  have hseven : bothTagsLeft.items.row 7 = some ⟨[2], false⟩ := by decide
  obtain ⟨five, hnew5⟩ := hinstance.exists_new hfive
  obtain ⟨six, hnew6⟩ := hinstance.exists_new hsix
  obtain ⟨seven, hnew7⟩ := hinstance.exists_new hseven
  obtain ⟨-, hfull, hothers5⟩ := hinstance.settled 5 _ five hfive hnew5
  obtain ⟨-, hpart, hothers6⟩ := hinstance.settled 6 _ six hsix hnew6
  obtain ⟨-, hneither, -⟩ := hinstance.settled 7 _ seven hseven hnew7
  refine ⟨⟨five.tags, six.tags, seven.tags, ?_, ?_, ?_, ⟨hfull.1, hfull.2 (by decide), ?_⟩,
    ⟨hpart.1, hpart.2 (by decide), ?_⟩, hneither⟩, ?_, ?_, hagain⟩
  · exact congrArg (Option.map LiveItem.tags) hnew5
  · exact congrArg (Option.map LiveItem.tags) hnew6
  · exact congrArg (Option.map LiveItem.tags) hnew7
  · exact (hothers5 9 (by decide) (by decide)).mpr (by decide)
  · exact (hothers6 9 (by decide) (by decide)).mpr (by decide)
  · rw [hupdated]
    decide
  · rw [hcleared]
    decide

end Nebularr
