import Nebularr.CoverageTags
import Nebularr.Matcher
import Nebularr.Transitions

/-!
# The dub tag

`MalTagSyncService` puts a tag on the items whose links name a dubbed anime, and
takes it off every other item.  Instance by instance it asks for the id of the
tag, lists the items, and sends what differs in chunks; meanwhile others edit the
same items: the coverage tags, the rules, somebody in the Arr itself.

As long as nobody else edits this one tag, every instance without an error ends
with the tag on exactly its targets, whatever the others do in between
(`dubTags_of_finished`); and a run that breaks off has done no harm
(`dubTags_toward`).
-/

/-- The keys of the rows that a test selects. -/
theorem KeyedTable.mem_keys_selectWhere {κ ρ : Type} [DecidableEq κ] {table : KeyedTable κ ρ}
    {test : κ → ρ → Bool} {k : κ} :
    k ∈ (table.selectWhere test).map Prod.fst ↔ ∃ r, table.row k = some r ∧ test k r = true := by
  rw [List.mem_map]
  constructor
  · intro ⟨row, hrow, hkey⟩
    obtain ⟨hlisted, htest⟩ := KeyedTable.mem_selectWhere_iff.mp hrow
    rw [hkey] at hlisted htest
    exact ⟨row.2, hlisted, htest⟩
  · intro ⟨r, hlisted, htest⟩
    exact ⟨(k, r), KeyedTable.mem_selectWhere_iff.mpr ⟨hlisted, htest⟩, rfl⟩

namespace Nebularr

/-! ## What a call does to a tag -/

/-- The tag that a call gives or takes. -/
def Edit.tag? : Edit → Option Int
  | .addTag _ tag => some tag
  | .removeTag _ tag => some tag
  | .setMonitored _ _ => none

section Item

variable {editor editor' : ArrEditor} {id tag : Int} {e : Edit} {item other : LiveItem}

/-- A call about something else. -/
theorem mem_tags_edit_of_ne (h : e.tag? ≠ some tag) :
    tag ∈ (item.edit editor id e).tags ↔ tag ∈ item.tags := by
  cases e with
  | addTag ids given =>
      have hne : tag ≠ given := fun heq => h (congrArg some heq.symm)
      rw [LiveItem.edit, editor.tags_addTag]
      simp [hne]
  | removeTag ids taken =>
      have hne : tag ≠ taken := fun heq => h (congrArg some heq.symm)
      rw [LiveItem.edit, editor.tags_removeTag]
      simp [hne]
  | setMonitored ids value => rw [LiveItem.edit, editor.tags_setMonitored]

/-- What a call makes of a tag depends on nothing else of the item, and is the
same on every instance. -/
theorem mem_tags_edit_congr (h : tag ∈ item.tags ↔ tag ∈ other.tags) :
    tag ∈ (item.edit editor id e).tags ↔ tag ∈ (other.edit editor' id e).tags := by
  rw [LiveItem.edit, LiveItem.edit]
  cases e with
  | addTag ids given => rw [editor.tags_addTag, editor'.tags_addTag, h]
  | removeTag ids taken => rw [editor.tags_removeTag, editor'.tags_removeTag, h]
  | setMonitored ids value => rw [editor.tags_setMonitored, editor'.tags_setMonitored, h]

/-- Whether an item has a tag after edits depends on whether it had that tag
before. -/
theorem mem_tags_edited_congr {es : List Edit} (h : tag ∈ item.tags ↔ tag ∈ other.tags) :
    tag ∈ (item.edited editor id es).tags ↔ tag ∈ (other.edited editor' id es).tags := by
  induction es generalizing item other with
  | nil => exact h
  | cons e rest ih =>
      rw [LiveItem.edited_cons, LiveItem.edited_cons]
      exact ih (mem_tags_edit_congr h)

/-- An item of an Arr undergoes an edit by itself. -/
theorem ArrLive.row_edit (arr : ArrLive) (e : Edit) (i : Int) :
    (arr.edit e).items.row i = (arr.items.row i).map fun item => item.edit arr.editor i e :=
  arr.row_edits [e] i

/-- An edit leaves every tag under its label. -/
@[simp] theorem ArrLive.findTag_edit (arr : ArrLive) (e : Edit) (key : String) :
    (arr.edit e).findTag key = arr.findTag key :=
  arr.findTag_edits [e] key

/-- An edit uses up no tag id. -/
theorem ArrLive.FreshTags.edit {arr : ArrLive} (h : arr.FreshTags) (e : Edit) :
    (arr.edit e).FreshTags :=
  ArrLive.FreshTags.edits h [e]

end Item

/-! ## A run -/

/-- An integration: the source, and the name of the instance. -/
abbrev ArrName := ArrEntity × String

/-- `_link_targets`, for one instance. -/
def linkTargets (input : MatcherInput) (links : WarehouseLinks) (name : ArrName) : Finset Int :=
  ((links.selectWhere fun key _ =>
    input.isDubbed key.malId && key.arrEntity = name.1 && key.instanceName = name.2).map
      fun row => row.2.warehouseSourceId).toFinset

/-- `_tag_diff`: the ids to add the tag to, and those to remove it from. -/
def tagDiff (live : KeyedTable Int LiveItem) (want : Finset Int) (tag : Int) :
    List Int × List Int :=
  ((live.selectWhere fun id item => id ∈ want && tag ∉ item.tags).map Prod.fst,
    (live.selectWhere fun id item => id ∉ want && tag ∈ item.tags).map Prod.fst)

/-- What `_load` reads; `key` is what the label is compared by. -/
structure TagSync where
  key : String
  /-- The Sonarrs, then the Radarrs. -/
  integrations : List ArrName
  namesUnique : integrations.Nodup
  mal : MatcherInput
  links : WarehouseLinks

/-- `targets.get(instance_name, set())`. -/
def TagSync.targets (sync : TagSync) (name : ArrName) : Finset Int :=
  linkTargets sync.mal sync.links name

/-- An entry of `details["errors"]`. -/
structure TagError where
  name : ArrName
  phase : CoveragePhase
  ids : List Int := []
  error : String
deriving DecidableEq, Repr

/-- `details`: how many ids were sent, and what went wrong. -/
structure TagReport where
  sent : ArrEntity → ApplyTags → ℕ := fun _ _ => 0
  errors : List TagError := []
  processed : ℕ := 0

/-- Where the loop over the integrations is. -/
inductive TagStage
  | ensuring (name : ArrName)
  | listing (name : ArrName) (tag : Int)
  /-- In the list `call`, with these chunks of it and these lists to come. -/
  | editing (name : ArrName) (tag : Int) (call : CoverageCall) (chunks : List Edit)
    (later : List CoverageCall)
  | finished

/-- The run among the others who edit the instances. -/
structure TagWorld where
  arrs : ArrName → ArrLive
  stage : TagStage := .finished
  pending : List ArrName
  report : TagReport := {}

inductive TagAction
  /-- A call of somebody else. -/
  | other (name : ArrName) (e : Edit)
  /-- Somebody else asks for the id of a label. -/
  | otherLabel (name : ArrName) (key : String)
  | ensure
  | ensureRaises (error : String)
  | list
  | listRaises (error : String)
  | send
  /-- A chunk raises; it may have reached the instance. -/
  | sendRaises (reached : Bool) (error : String)
  | sent

/-- On to the next integration. -/
def TagWorld.next (s : TagWorld) : TagWorld :=
  match s.pending with
  | [] => { s with stage := .finished }
  | name :: rest => { s with stage := .ensuring name, pending := rest }

/-- On to the next list of ids. -/
def TagWorld.nextList (s : TagWorld) (name : ArrName) (tag : Int) : List CoverageCall → TagWorld
  | [] => s.next
  | call :: later => { s with stage := .editing name tag call call.edits later }

/-- `details["errors"].append(…)`. -/
def TagWorld.fail (s : TagWorld) (error : TagError) : TagWorld :=
  { s with report := { s.report with errors := s.report.errors ++ [error] } }

/-- `details[counter] += len(ids)`. -/
def TagReport.count (report : TagReport) (source : ArrEntity) (call : CoverageCall) : TagReport :=
  { report with
    sent := fun source' op =>
      if source' = source ∧ op = call.applyTags then report.sent source' op + call.ids.length
      else report.sent source' op }

/-- A call arrives. -/
def TagWorld.editAt (s : TagWorld) (name : ArrName) (e : Edit) : TagWorld :=
  { s with arrs := Function.update s.arrs name ((s.arrs name).edit e) }

/-- `POST /tag`, unless the label is known. -/
def TagWorld.labelAt (s : TagWorld) (name : ArrName) (key : String) : TagWorld :=
  { s with arrs := Function.update s.arrs name ((s.arrs name).ensureTagId key).1 }

/-- The lists of ids of an instance. -/
def dubTagCalls (live : KeyedTable Int LiveItem) (want : Finset Int) (tag : Int) :
    List CoverageCall :=
  let diff := tagDiff live want tag
  [⟨.add, tag, diff.1⟩, ⟨.remove, tag, diff.2⟩]

/-- One action; `none` where it cannot happen. -/
def malTagStep (sync : TagSync) (s : TagWorld) : TagAction → Option TagWorld
  | .other name e => some (s.editAt name e)
  | .otherLabel name key => some (s.labelAt name key)
  | .ensure =>
      match s.stage with
      | .ensuring name =>
          some { s.labelAt name sync.key with
            stage := .listing name ((s.arrs name).ensureTagId sync.key).2 }
      | _ => none
  | .ensureRaises error =>
      match s.stage with
      | .ensuring name => some (s.fail { name := name, phase := .ensureTag, error := error }).next
      | _ => none
  | .list =>
      match s.stage with
      | .listing name tag =>
          some ({ s with report := { s.report with processed := s.report.processed + 1 } }.nextList
            name tag
            (dubTagCalls (s.arrs name).items (sync.targets name) tag))
      | _ => none
  | .listRaises error =>
      match s.stage with
      | .listing name _ => some (s.fail { name := name, phase := .list, error := error }).next
      | _ => none
  | .send =>
      match s.stage with
      | .editing name tag call (e :: chunks) later =>
          some { s.editAt name e with stage := .editing name tag call chunks later }
      | _ => none
  | .sendRaises reached error =>
      match s.stage with
      | .editing name tag call (e :: _) later =>
          let left := if reached then s.editAt name e else s
          some ((left.fail ⟨name, .editor call.applyTags, call.ids, error⟩).nextList name tag later)
      | _ => none
  | .sent =>
      match s.stage with
      | .editing name tag call [] later =>
          some ({ s with report := s.report.count name.1 call }.nextList name tag later)
      | _ => none

/-- A run at its start. -/
def TagWorld.start (sync : TagSync) (arrs : ArrName → ArrLive) : TagWorld :=
  TagWorld.next { arrs := arrs, pending := sync.integrations }

/-- Nobody else edits the tag under its label. -/
def LeavesTag (sync : TagSync) (s : TagWorld) : TagAction → Prop
  | .other name e => ∀ tag, e.tag? = some tag → (s.arrs name).findTag sync.key ≠ some tag
  | _ => True

/-! ## What a run promises -/

section Run

variable {sync : TagSync} {s t : TagWorld} {a : TagAction} {name : ArrName} {tag : Int}

/-- What each action does, and where the run has to be for it. -/
inductive TagMoves (sync : TagSync) (s : TagWorld) : TagAction → TagWorld → Prop
  | other (name : ArrName) (e : Edit) : TagMoves sync s (.other name e) (s.editAt name e)
  | otherLabel (name : ArrName) (key : String) :
    TagMoves sync s (.otherLabel name key) (s.labelAt name key)
  | ensure {name : ArrName} (hstage : s.stage = .ensuring name) :
      TagMoves sync s .ensure { s.labelAt name sync.key with
        stage := .listing name ((s.arrs name).ensureTagId sync.key).2 }
  | ensureRaises {name : ArrName} (hstage : s.stage = .ensuring name) (error : String) :
      TagMoves sync s (.ensureRaises error)
        (s.fail { name := name, phase := .ensureTag, error := error }).next
  | list {name : ArrName} {tag : Int} (hstage : s.stage = .listing name tag) :
      TagMoves sync s .list
        ({ s with report := { s.report with processed := s.report.processed + 1 } }.nextList name
          tag
          (dubTagCalls (s.arrs name).items (sync.targets name) tag))
  | listRaises {name : ArrName} {tag : Int} (hstage : s.stage = .listing name tag)
    (error : String) :
      TagMoves sync s (.listRaises error)
        (s.fail { name := name, phase := .list, error := error }).next
  | send {name : ArrName} {tag : Int} {call : CoverageCall} {e : Edit} {chunks : List Edit}
      {later : List CoverageCall} (hstage : s.stage = .editing name tag call (e :: chunks) later) :
      TagMoves sync s .send { s.editAt name e with stage := .editing name tag call chunks later }
  | sendRaises {name : ArrName} {tag : Int} {call : CoverageCall} {e : Edit} {chunks : List Edit}
      {later : List CoverageCall} (hstage : s.stage = .editing name tag call (e :: chunks) later)
      (reached : Bool) (error : String) :
      TagMoves sync s (.sendRaises reached error)
        (((if reached then s.editAt name e else s).fail
          ⟨name, .editor call.applyTags, call.ids, error⟩).nextList name tag later)
  | sent {name : ArrName} {tag : Int} {call : CoverageCall} {later : List CoverageCall}
      (hstage : s.stage = .editing name tag call [] later) :
      TagMoves sync s .sent
        ({ s with report := s.report.count name.1 call }.nextList name tag later)

/-- **All that a step can do.** -/
theorem tagMoves_of_malTagStep (h : malTagStep sync s a = some t) : TagMoves sync s a t := by
  cases a with
  | other name e =>
      obtain rfl := Option.some.inj h
      exact .other name e
  | otherLabel name key =>
      obtain rfl := Option.some.inj h
      exact .otherLabel name key
  | ensure =>
      simp only [malTagStep] at h
      split at h
      · next hstage =>
          obtain rfl := Option.some.inj h
          exact .ensure hstage
      · exact nomatch h
  | ensureRaises error =>
      simp only [malTagStep] at h
      split at h
      · next hstage =>
          obtain rfl := Option.some.inj h
          exact .ensureRaises hstage error
      · exact nomatch h
  | list =>
      simp only [malTagStep] at h
      split at h
      · next hstage =>
          obtain rfl := Option.some.inj h
          exact .list hstage
      · exact nomatch h
  | listRaises error =>
      simp only [malTagStep] at h
      split at h
      · next hstage =>
          obtain rfl := Option.some.inj h
          exact .listRaises hstage error
      · exact nomatch h
  | send =>
      simp only [malTagStep] at h
      split at h
      · next hstage =>
          obtain rfl := Option.some.inj h
          exact .send hstage
      · exact nomatch h
  | sendRaises reached error =>
      simp only [malTagStep] at h
      split at h
      · next hstage =>
          obtain rfl := Option.some.inj h
          exact .sendRaises hstage reached error
      · exact nomatch h
  | sent =>
      simp only [malTagStep] at h
      split at h
      · next hstage =>
          obtain rfl := Option.some.inj h
          exact .sent hstage
      · exact nomatch h

/-- No error of the run is about this instance. -/
def TagReport.Spares (report : TagReport) (name : ArrName) : Prop :=
  ∀ error ∈ report.errors, error.name ≠ name

/-- The tag is on the targets of an instance, and on nothing else. -/
def Tagged (sync : TagSync) (name : ArrName) (arr : ArrLive) : Prop :=
  ∃ tag, arr.findTag sync.key = some tag ∧
    ∀ i item, arr.items.row i = some item → (tag ∈ item.tags ↔ i ∈ sync.targets name)

/-- These calls, on top of what is there, put the tag on the targets. -/
def Promised (want : Finset Int) (tag : Int) (arr : ArrLive) (es : List Edit) : Prop :=
  ∀ i item, arr.items.row i = some item → (tag ∈ (item.edited arr.editor i es).tags ↔ i ∈ want)

/-- Nothing happened to the tag under a label. -/
structure Unmoved (key : String) (old new : ArrLive) : Prop where
  fresh : old.FreshTags → new.FreshTags
  found : ∀ tag, old.findTag key = some tag → new.findTag key = some tag
  items : ∀ tag, old.findTag key = some tag → ∀ i item, new.items.row i = some item →
    ∃ before, old.items.row i = some before ∧ (tag ∈ item.tags ↔ tag ∈ before.tags)

/-- Where nothing happened, nothing happened to the tag. -/
theorem Unmoved.refl (key : String) (arr : ArrLive) : Unmoved key arr arr :=
  ⟨id, fun _ => id, fun _ _ _ item hitem => ⟨item, hitem, Iff.rfl⟩⟩

/-- A call about another tag. -/
theorem unmoved_edit {key : String} {arr : ArrLive} {e : Edit}
    (h : ∀ tag, e.tag? = some tag → arr.findTag key ≠ some tag) : Unmoved key arr (arr.edit e) where
  fresh := fun hfresh => hfresh.edit e
  found := fun tag hfound => by rwa [ArrLive.findTag_edit]
  items := by
    intro tag hfound i item hitem
    rw [ArrLive.row_edit, Option.map_eq_some_iff] at hitem
    obtain ⟨before, hbefore, rfl⟩ := hitem
    exact ⟨before, hbefore, mem_tags_edit_of_ne fun htag => h tag htag hfound⟩

/-- The id of any label is asked for. -/
theorem unmoved_ensureTagId {key key' : String} {arr : ArrLive} (hfresh : arr.FreshTags) :
    Unmoved key arr (arr.ensureTagId key').1 where
  fresh := fun hfresh => hfresh.ensureTagId key'
  found := fun _ hfound => ArrLive.findTag_ensureTagId_of_some hfresh hfound
  items := by
    intro tag _ i item hitem
    rw [ArrLive.items_ensureTagId] at hitem
    exact ⟨item, hitem, Iff.rfl⟩

/-- A tag that is where it belongs stays there while nothing happens to it. -/
theorem Tagged.of_unmoved {old new : ArrLive} (h : Tagged sync name old)
    (hsame : Unmoved sync.key old new) :
    Tagged sync name new := by
  obtain ⟨tag, hfound, hitems⟩ := h
  refine ⟨tag, hsame.found tag hfound, fun i item hitem => ?_⟩
  obtain ⟨before, hbefore, htag⟩ := hsame.items tag hfound i item hitem
  rw [htag]
  exact hitems i before hbefore

/-- A promise is kept while nothing happens to the tag. -/
theorem Promised.of_unmoved {want : Finset Int} {old new : ArrLive} {es : List Edit}
    (h : Promised want tag old es) (hfound : old.findTag sync.key = some tag)
    (hsame : Unmoved sync.key old new) : Promised want tag new es := by
  intro i item hitem
  obtain ⟨before, hbefore, htag⟩ := hsame.items tag hfound i item hitem
  rw [mem_tags_edited_congr htag]
  exact h i before hbefore

/-- The first of the promised calls arrives. -/
theorem Promised.send {want : Finset Int} {arr : ArrLive} {e : Edit} {es : List Edit}
    (h : Promised want tag arr (e :: es)) : Promised want tag (arr.edit e) es := by
  intro i item hitem
  rw [ArrLive.row_edit, Option.map_eq_some_iff] at hitem
  obtain ⟨before, hbefore, rfl⟩ := hitem
  exact h i before hbefore

/-- The lists of ids are what it takes. -/
theorem promised_dubTagCalls (arr : ArrLive) (want : Finset Int) (tag : Int) :
    Promised want tag arr ((dubTagCalls arr.items want tag).flatMap CoverageCall.edits) := by
  intro i item hitem
  have hedits : (dubTagCalls arr.items want tag).flatMap CoverageCall.edits =
      (slices tagEditorChunk (tagDiff arr.items want tag).1).map (Edit.addTag · tag) ++
        (slices tagEditorChunk (tagDiff arr.items want tag).2).map (Edit.removeTag · tag) := by
    simp [dubTagCalls, CoverageCall.edits, ApplyTags.edit]
  rw [hedits, LiveItem.edited_append, (LiveItem.edited_removeTag ..).2,
    (LiveItem.edited_addTag ..).2,
    mem_slices_iff, mem_slices_iff, tagDiff, KeyedTable.mem_keys_selectWhere,
      KeyedTable.mem_keys_selectWhere,
    hitem]
  by_cases hwant : i ∈ want
  · by_cases htag : tag ∈ item.tags <;> simp [hwant, htag]
  · by_cases htag : tag ∈ item.tags <;> simp [hwant, htag]

/-! ## Every instance without an error -/

/-- Of the instances that the run has been to, those without an error have their
tag. -/
def SettledSoFar (sync : TagSync) (s : TagWorld) (ahead : List ArrName) : Prop :=
  ahead.Nodup ∧ ∀ name ∈ sync.integrations, name ∉ ahead → s.report.Spares name →
    Tagged sync name (s.arrs name)

/-- What the run keeps to, wherever it is. -/
def OnCourse (sync : TagSync) (s : TagWorld) : Prop :=
  (∀ name, (s.arrs name).FreshTags) ∧
    match s.stage with
    | .ensuring name => SettledSoFar sync s (name :: s.pending)
    | .listing name tag =>
        SettledSoFar sync s (name :: s.pending) ∧ (s.arrs name).findTag sync.key = some tag
    | .editing name tag _ chunks later =>
        SettledSoFar sync s (name :: s.pending) ∧ (s.arrs name).findTag sync.key = some tag ∧
          (s.report.Spares name → Promised (sync.targets name) tag (s.arrs name)
            (chunks ++ later.flatMap CoverageCall.edits))
    | .finished => SettledSoFar sync s []

/-- What others do to the instances does not lead the run astray. -/
theorem OnCourse.of_unmoved {arrs : ArrName → ArrLive} (hs : OnCourse sync s)
    (hsame : ∀ name, Unmoved sync.key (s.arrs name) (arrs name)) :
    OnCourse sync { s with arrs := arrs } := by
  obtain ⟨hfresh, hstage⟩ := hs
  have hsettled : ∀ ahead, SettledSoFar sync s ahead →
      SettledSoFar sync { s with arrs := arrs } ahead :=
    fun ahead h => ⟨h.1, fun name hname hbehind hspared =>
      (h.2 name hname hbehind hspared).of_unmoved (hsame name)⟩
  refine ⟨fun name => (hsame name).fresh (hfresh name), ?_⟩
  cases hcase : s.stage with
  | ensuring name =>
      rw [hcase] at hstage
      exact hsettled _ hstage
  | listing name tag =>
      rw [hcase] at hstage
      exact ⟨hsettled _ hstage.1, (hsame name).found tag hstage.2⟩
  | editing name tag call chunks later =>
      rw [hcase] at hstage
      obtain ⟨hdone, hfound, hpromised⟩ := hstage
      exact ⟨hsettled _ hdone, (hsame name).found tag hfound, fun hspared =>
        (hpromised hspared).of_unmoved hfound (hsame name)⟩
  | finished =>
      rw [hcase] at hstage
      exact hsettled _ hstage

/-- On to the next integration, when this one is done with. -/
theorem onCourse_next (hfresh : ∀ name, (s.arrs name).FreshTags)
    (hsettled : SettledSoFar sync s s.pending) :
    OnCourse sync s.next := by
  unfold TagWorld.next
  split
  · next hnone =>
      rw [hnone] at hsettled
      exact ⟨hfresh, hsettled⟩
  · next name rest hpending =>
      rw [hpending] at hsettled
      exact ⟨hfresh, hsettled⟩

/-- An integration is done with once it has its tag, or an error. -/
theorem SettledSoFar.tail (h : SettledSoFar sync s (name :: s.pending))
    (hname : s.report.Spares name → Tagged sync name (s.arrs name)) :
    SettledSoFar sync s s.pending := by
  refine ⟨h.1.of_cons, fun other hother hbehind hspared => ?_⟩
  by_cases heq : other = name
  · rw [heq] at hspared ⊢
    exact hname hspared
  · exact h.2 other hother (fun hmem => (List.mem_cons.mp hmem).elim heq hbehind) hspared

/-- After a list is handled the run goes on as promised. -/
theorem onCourse_nextList {later : List CoverageCall} (hfresh : ∀ name, (s.arrs name).FreshTags)
    (hsettled : SettledSoFar sync s (name :: s.pending))
    (hfound : (s.arrs name).findTag sync.key = some tag)
    (hpromised : s.report.Spares name →
      Promised (sync.targets name) tag (s.arrs name) (later.flatMap CoverageCall.edits)) :
    OnCourse sync (s.nextList name tag later) := by
  cases later with
  | nil =>
      refine onCourse_next hfresh (hsettled.tail fun hspared =>
        ⟨tag, hfound, fun i item hitem => ?_⟩)
      exact hpromised hspared i item hitem
  | cons call rest => exact ⟨hfresh, hsettled, hfound, hpromised⟩

/-- An error is about the instance that the run is at. -/
theorem SettledSoFar.fail {error : TagError} {ahead : List ArrName}
    (h : SettledSoFar sync s ahead) :
    SettledSoFar sync (s.fail error) ahead :=
  ⟨h.1, fun name hname hbehind hspared =>
    h.2 name hname hbehind fun e he => hspared e (List.mem_append_left _ he)⟩

/-- An error of an instance is about that instance. -/
theorem not_spares_fail {error : TagError} (hname : error.name = name) :
    ¬ (s.fail error).report.Spares name :=
  fun hspared => hspared error (List.mem_append_right _ List.mem_cons_self) hname

/-- What happens to an instance that the run has still to deal with does not
matter to the others. -/
theorem SettledSoFar.update {arr : ArrLive} {ahead : List ArrName} (h : SettledSoFar sync s ahead)
    (hname : name ∈ ahead) :
    SettledSoFar sync { s with arrs := Function.update s.arrs name arr } ahead := by
  refine ⟨h.1, fun other hother hbehind hspared => ?_⟩
  have hne : other ≠ name := fun heq => hbehind (heq ▸ hname)
  show Tagged sync other (Function.update s.arrs name arr other)
  rw [Function.update_of_ne hne]
  exact h.2 other hother hbehind hspared

/-- A changed Arr whose next tag is new leaves every Arr so. -/
theorem freshTags_update {arr : ArrLive} (hfresh : ∀ name, (s.arrs name).FreshTags)
    (harr : arr.FreshTags) :
    ∀ other, (Function.update s.arrs name arr other).FreshTags := by
  intro other
  by_cases heq : other = name
  · rw [heq, Function.update_self]
    exact harr
  · rw [Function.update_of_ne heq]
    exact hfresh other

/-- Nothing happens to the tag on the Arrs that are not written. -/
theorem unmoved_update {arr : ArrLive} (h : Unmoved sync.key (s.arrs name) arr) :
    ∀ other, Unmoved sync.key (s.arrs other) (Function.update s.arrs name arr other) := by
  intro other
  by_cases heq : other = name
  · rw [heq, Function.update_self]
    exact h
  · rw [Function.update_of_ne heq]
    exact .refl _ _

/-- One action. -/
theorem OnCourse.step (hs : OnCourse sync s) (hleaves : LeavesTag sync s a)
    (h : malTagStep sync s a = some t) : OnCourse sync t := by
  obtain ⟨hfresh, hwhere⟩ := hs
  cases tagMoves_of_malTagStep h with
  | other name e =>
      exact OnCourse.of_unmoved ⟨hfresh, hwhere⟩ (unmoved_update (unmoved_edit hleaves))
  | otherLabel name key =>
      exact OnCourse.of_unmoved ⟨hfresh, hwhere⟩
        (unmoved_update (unmoved_ensureTagId (hfresh name)))
  | @ensure name hstage =>
      rw [hstage] at hwhere
      have hensured := ArrLive.findTag_ensureTagId (hfresh name) sync.key sync.key
      rw [if_pos rfl] at hensured
      refine ⟨freshTags_update hfresh ((hfresh name).ensureTagId sync.key),
        hwhere.update List.mem_cons_self, ?_⟩
      show (Function.update s.arrs name _ name).findTag sync.key = _
      rw [Function.update_self, hensured]
  | ensureRaises hstage error =>
      rw [hstage] at hwhere
      exact onCourse_next hfresh
        (hwhere.fail.tail fun hspared => absurd hspared (not_spares_fail rfl))
  | @list name tag hstage =>
      rw [hstage] at hwhere
      exact onCourse_nextList hfresh hwhere.1 hwhere.2 fun _ =>
        promised_dubTagCalls (s.arrs name) (sync.targets name) tag
  | listRaises hstage error =>
      rw [hstage] at hwhere
      exact onCourse_next hfresh
        (hwhere.1.fail.tail fun hspared => absurd hspared (not_spares_fail rfl))
  | @send name tag call e chunks later hstage =>
      rw [hstage] at hwhere
      obtain ⟨hsettled, hfound, hpromised⟩ := hwhere
      refine ⟨freshTags_update hfresh ((hfresh name).edit e), hsettled.update List.mem_cons_self,
        ?_, ?_⟩
      · show (Function.update s.arrs name _ name).findTag sync.key = _
        rw [Function.update_self, ArrLive.findTag_edit]
        exact hfound
      · intro hspared
        show Promised _ _ (Function.update s.arrs name _ name) _
        rw [Function.update_self]
        exact (hpromised hspared).send
  | @sendRaises name tag call e chunks later hstage reached error =>
      rw [hstage] at hwhere
      obtain ⟨hsettled, hfound, -⟩ := hwhere
      cases reached with
      | false =>
          exact onCourse_nextList hfresh hsettled.fail hfound fun hspared =>
            absurd hspared (not_spares_fail rfl)
      | true =>
          refine onCourse_nextList (freshTags_update hfresh ((hfresh name).edit e))
            (hsettled.update List.mem_cons_self).fail ?_ fun hspared =>
              absurd hspared (not_spares_fail rfl)
          show (Function.update s.arrs name _ name).findTag sync.key = _
          rw [Function.update_self, ArrLive.findTag_edit]
          exact hfound
  | sent hstage =>
      rw [hstage] at hwhere
      obtain ⟨hsettled, hfound, hpromised⟩ := hwhere
      exact onCourse_nextList hfresh hsettled hfound hpromised

/-- A run that begins is on its course. -/
theorem onCourse_start {arrs : ArrName → ArrLive} (hfresh : ∀ name, (arrs name).FreshTags) :
    OnCourse sync (TagWorld.start sync arrs) :=
  onCourse_next hfresh ⟨sync.namesUnique, fun _ hname hbehind _ => absurd hname hbehind⟩

/-- Where the tags are as they are to be, nothing is sent. -/
theorem tagDiff_of_tagged {arr : ArrLive} (h : Tagged sync name arr) :
    ∃ tag, arr.findTag sync.key = some tag ∧
      tagDiff arr.items (sync.targets name) tag = ([], []) := by
  obtain ⟨tag, hfound, hitems⟩ := h
  refine ⟨tag, hfound, Prod.ext ?_ ?_⟩
  · rw [tagDiff, List.eq_nil_iff_forall_not_mem]
    intro i hi
    obtain ⟨item, hitem, htest⟩ := KeyedTable.mem_keys_selectWhere.mp hi
    have hboth := hitems i item hitem
    simp [hboth] at htest
  · rw [tagDiff, List.eq_nil_iff_forall_not_mem]
    intro i hi
    obtain ⟨item, hitem, htest⟩ := KeyedTable.mem_keys_selectWhere.mp hi
    have hboth := hitems i item hitem
    simp [hboth] at htest

/-- **A run that gets through.**  Whatever others do to the items and the labels
in the meantime, as long as they leave the tag under this label alone: when the
run is finished, every integration without an error has the tag on exactly its
targets, and another run would find nothing to send. -/
theorem dubTags_of_finished {arrs : ArrName → ArrLive} (hfresh : ∀ name, (arrs name).FreshTags)
    (hrun : Reaches (malTagStep sync) (LeavesTag sync) (TagWorld.start sync arrs) t)
    (hfinished : t.stage = .finished) (hname : name ∈ sync.integrations)
    (hspared : t.report.Spares name) :
    Tagged sync name (t.arrs name) ∧
      ∃ tag, (t.arrs name).findTag sync.key = some tag ∧
        tagDiff (t.arrs name).items (sync.targets name) tag = ([], []) := by
  have ht : OnCourse sync t :=
    hrun.invariant (onCourse_start hfresh) fun _ _ _ hs hleaves hstep => hs.step hleaves hstep
  have hsettled := ht.2
  rw [hfinished] at hsettled
  have htagged : Tagged sync name (t.arrs name) := hsettled.2 name hname List.not_mem_nil hspared
  exact ⟨htagged, tagDiff_of_tagged htagged⟩

/-! ## Whatever fails -/

/-- A call of the run, for an instance with these targets. -/
def Helps (want : Finset Int) (tag : Int) (e : Edit) : Prop :=
  ∃ ids, e = .addTag ids tag ∧ (∀ i ∈ ids, i ∈ want) ∨ e = .removeTag ids tag ∧ ∀ i ∈ ids, i ∉ want

/-- An item is on its way from what it was to what it is to be. -/
structure TagToward (want : Finset Int) (tag i : Int) (old new : LiveItem) : Prop where
  gained : tag ∈ new.tags → tag ∈ old.tags ∨ i ∈ want
  kept : tag ∈ old.tags → i ∈ want → tag ∈ new.tags

/-- An item that has the tag as another does is as far on its way. -/
theorem TagToward.of_iff {want : Finset Int} {i : Int} {old new newer : LiveItem}
    (h : TagToward want tag i old new)
    (hsame : tag ∈ newer.tags ↔ tag ∈ new.tags) : TagToward want tag i old newer :=
  ⟨fun hmem => h.gained (hsame.mp hmem), fun hold hwant => hsame.mpr (h.kept hold hwant)⟩

/-- A call of the run does no harm. -/
theorem TagToward.edit {want : Finset Int} {i : Int} {old new : LiveItem} {e : Edit}
    (h : TagToward want tag i old new) (he : Helps want tag e) (editor : ArrEditor) :
    TagToward want tag i old (new.edit editor i e) := by
  obtain ⟨ids, ⟨rfl, hids⟩ | ⟨rfl, hids⟩⟩ := he
  · constructor
    · rw [LiveItem.edit, editor.tags_addTag]
      rintro (hmem | ⟨-, hid⟩)
      · exact h.gained hmem
      · exact Or.inr (hids i hid)
    · intro hold hwant
      rw [LiveItem.edit, editor.tags_addTag]
      exact Or.inl (h.kept hold hwant)
  · constructor
    · rw [LiveItem.edit, editor.tags_removeTag]
      exact fun hmem => h.gained hmem.1
    · intro hold hwant
      rw [LiveItem.edit, editor.tags_removeTag]
      exact ⟨h.kept hold hwant, fun hid => hids i hid.2 hwant⟩

/-- The calls of the run help. -/
theorem helps_dubTagCalls {live : KeyedTable Int LiveItem} {want : Finset Int} {e : Edit}
    (he : e ∈ (dubTagCalls live want tag).flatMap CoverageCall.edits) : Helps want tag e := by
  obtain ⟨call, hcall, he⟩ := List.mem_flatMap.mp he
  obtain ⟨ids, hids, rfl⟩ := List.mem_map.mp he
  refine ⟨ids, ?_⟩
  have hin : ∀ i ∈ ids, i ∈ call.ids := fun i hi => mem_slices_iff.mp ⟨ids, hids, hi⟩
  obtain rfl | hcall := List.mem_cons.mp hcall
  · refine Or.inl ⟨rfl, fun i hi => ?_⟩
    obtain ⟨item, -, htest⟩ := KeyedTable.mem_keys_selectWhere.mp (hin i hi)
    rw [Bool.and_eq_true, decide_eq_true_eq] at htest
    exact htest.1
  · obtain rfl := List.mem_singleton.mp hcall
    refine Or.inr ⟨rfl, fun i hi => ?_⟩
    obtain ⟨item, -, htest⟩ := KeyedTable.mem_keys_selectWhere.mp (hin i hi)
    rw [Bool.and_eq_true, decide_eq_true_eq] at htest
    exact htest.1

/-- An instance on which the label had this id when the run began. -/
structure ArrToward (sync : TagSync) (name : ArrName) (tag : Int) (before arr : ArrLive) :
    Prop where
  fresh : arr.FreshTags
  found : arr.findTag sync.key = some tag
  items : ∀ i new, arr.items.row i = some new →
    ∃ old, before.items.row i = some old ∧ TagToward (sync.targets name) tag i old new

/-- What the run has still to send to it. -/
def StageToward (sync : TagSync) (name : ArrName) (tag : Int) : TagStage → Prop
  | .listing name' tag' => name' = name → tag' = tag
  | .editing name' tag' _ chunks later =>
      name' = name → tag' = tag ∧
        ∀ e ∈ chunks ++ later.flatMap CoverageCall.edits, Helps (sync.targets name) tag e
  | _ => True

variable {before arr arr' : ArrLive} {other : ArrName}

/-- An Arr stays on its way while nothing happens to the tag. -/
theorem ArrToward.of_unmoved (h : ArrToward sync name tag before arr)
    (hsame : Unmoved sync.key arr arr') :
    ArrToward sync name tag before arr' := by
  refine ⟨hsame.fresh h.fresh, hsame.found tag h.found, fun i new hnew => ?_⟩
  obtain ⟨mid, hmid, htag⟩ := hsame.items tag h.found i new hnew
  obtain ⟨old, hold, htoward⟩ := h.items i mid hmid
  exact ⟨old, hold, htoward.of_iff htag⟩

/-- A call of the run brings an Arr no further from its targets. -/
theorem ArrToward.edit {e : Edit} (h : ArrToward sync name tag before arr)
    (he : Helps (sync.targets name) tag e) : ArrToward sync name tag before (arr.edit e) := by
  refine ⟨h.fresh.edit e, by rw [ArrLive.findTag_edit]; exact h.found, fun i new hnew => ?_⟩
  rw [ArrLive.row_edit, Option.map_eq_some_iff] at hnew
  obtain ⟨mid, hmid, rfl⟩ := hnew
  obtain ⟨old, hold, htoward⟩ := h.items i mid hmid
  exact ⟨old, hold, htoward.edit he arr.editor⟩

/-- Between two instances nothing is left to send. -/
theorem stageToward_next : StageToward sync name tag s.next.stage := by
  unfold TagWorld.next
  split <;> trivial

/-- Going on to the next instance touches no Arr. -/
theorem arrs_next : s.next.arrs = s.arrs := by
  unfold TagWorld.next
  split <;> rfl

/-- Going on to the next list touches no Arr. -/
theorem arrs_nextList {tag' : Int} {later : List CoverageCall} :
    (s.nextList other tag' later).arrs = s.arrs := by
  cases later with
  | nil => exact arrs_next
  | cons call rest => rfl

/-- What is left of the calls still helps. -/
theorem stageToward_nextList {tag' : Int} {later : List CoverageCall}
    (h : other = name → tag' = tag ∧
      ∀ e ∈ later.flatMap CoverageCall.edits, Helps (sync.targets name) tag e) :
    StageToward sync name tag (s.nextList other tag' later).stage := by
  cases later with
  | nil => exact stageToward_next
  | cons call rest => exact h

/-- A tag that is there is not made again. -/
theorem ensureTagId_of_found {key : String} (h : arr.findTag key = some tag) :
    (arr.ensureTagId key).2 = tag := by
  rw [ArrLive.ensureTagId, h]

/-- A chunk arrives. -/
theorem ArrToward.editAt {e : Edit} (h : ArrToward sync name tag before (s.arrs name))
    (he : other = name → Helps (sync.targets name) tag e) :
    ArrToward sync name tag before ((s.editAt other e).arrs name) := by
  show ArrToward sync name tag before (Function.update s.arrs other _ name)
  by_cases heq : other = name
  · rw [heq, Function.update_self]
    exact h.edit (he heq)
  · rw [Function.update_of_ne (Ne.symm heq)]
    exact h

/-- One action. -/
theorem toward_malTagStep (hfresh : ∀ name, (s.arrs name).FreshTags)
    (hs : ArrToward sync name tag before (s.arrs name) ∧ StageToward sync name tag s.stage)
    (hleaves : LeavesTag sync s a) (h : malTagStep sync s a = some t) :
    ArrToward sync name tag before (t.arrs name) ∧ StageToward sync name tag t.stage := by
  obtain ⟨harr, hat⟩ := hs
  cases tagMoves_of_malTagStep h with
  | other name' e => exact ⟨harr.of_unmoved (unmoved_update (unmoved_edit hleaves) name), hat⟩
  | otherLabel name' key =>
      exact ⟨harr.of_unmoved (unmoved_update (unmoved_ensureTagId (hfresh name')) name), hat⟩
  | @ensure name' hstage =>
      refine ⟨harr.of_unmoved (unmoved_update (unmoved_ensureTagId (hfresh name')) name),
        fun heq => ?_⟩
      rw [heq]
      exact ensureTagId_of_found harr.found
  | ensureRaises hstage error =>
      rw [arrs_next]
      exact ⟨harr, stageToward_next⟩
  | list hstage =>
      rw [hstage] at hat
      rw [arrs_nextList]
      refine ⟨harr, stageToward_nextList fun heq => ⟨hat heq, fun e he => ?_⟩⟩
      rw [heq, hat heq] at he
      exact helps_dubTagCalls he
  | listRaises hstage error =>
      rw [arrs_next]
      exact ⟨harr, stageToward_next⟩
  | @send name' tag' call e chunks later hstage =>
      rw [hstage] at hat
      refine ⟨harr.editAt fun heq => (hat heq).2 e List.mem_cons_self, fun heq => ?_⟩
      obtain ⟨htag, hhelps⟩ := hat heq
      exact ⟨htag, fun e' he' => hhelps e' (List.mem_cons_of_mem e he')⟩
  | @sendRaises name' tag' call e chunks later hstage reached error =>
      rw [hstage] at hat
      rw [arrs_nextList]
      refine ⟨?_, stageToward_nextList fun heq => ?_⟩
      · cases reached with
        | false => exact harr
        | true => exact harr.editAt fun heq => (hat heq).2 e List.mem_cons_self
      · obtain ⟨htag, hhelps⟩ := hat heq
        exact ⟨htag, fun e' he' => hhelps e' (List.mem_append_right _ he')⟩
  | sent hstage =>
      rw [hstage] at hat
      rw [arrs_nextList]
      exact ⟨harr, stageToward_nextList hat⟩

/-- **No harm.**  Wherever the run is, whatever calls of it have failed, and
whatever the others do who leave the tag under this label alone: an item that is
no target has not gained the tag, and a target that had it has it. -/
theorem dubTags_toward {arrs : ArrName → ArrLive} (hfresh : ∀ name, (arrs name).FreshTags)
    (hfound : (arrs name).findTag sync.key = some tag)
    (hrun : Reaches (malTagStep sync) (LeavesTag sync) (TagWorld.start sync arrs) t) {i : Int}
    {new : LiveItem}
    (hnew : (t.arrs name).items.row i = some new) :
    ∃ old, (arrs name).items.row i = some old ∧
      (tag ∈ new.tags → tag ∈ old.tags ∨ i ∈ sync.targets name) ∧
      (tag ∈ old.tags → i ∈ sync.targets name → tag ∈ new.tags) := by
  have htoward : ArrToward sync name tag (arrs name) ((TagWorld.start sync arrs).arrs name) := by
    rw [TagWorld.start, arrs_next]
    exact ⟨hfresh name, hfound, fun i old hold =>
      ⟨old, hold, fun hmem => Or.inl hmem, fun hmem _ => hmem⟩⟩
  have hkept : ∀ s, OnCourse sync s ∧ ArrToward sync name tag (arrs name) (s.arrs name) ∧
      StageToward sync name tag s.stage → ∀ a s', LeavesTag sync s a →
        malTagStep sync s a = some s' →
        OnCourse sync s' ∧ ArrToward sync name tag (arrs name) (s'.arrs name) ∧
          StageToward sync name tag s'.stage :=
    fun s hs a s' hleaves hstep =>
      ⟨hs.1.step hleaves hstep, toward_malTagStep hs.1.1 hs.2 hleaves hstep⟩
  obtain ⟨-, harr, -⟩ := hrun.invariant ⟨onCourse_start hfresh, htoward, stageToward_next⟩
    fun s a s' hs hleaves hstep => hkept s hs a s' hleaves hstep
  obtain ⟨old, hold, h⟩ := harr.items i new hnew
  exact ⟨old, hold, h.gained, h.kept⟩

end Run

/-- One Sonarr, on which series 5 is to have the tag and series 6 has it. -/
def oneDubbedSeries : TagSync where
  key := "dub"
  integrations := [(.sonarrSeries, "main")]
  namesUnique := by decide
  mal := { anime := KeyedTable.empty.upsert 1 { isEnglishDubbed := true } id
           manualLink := KeyedTable.empty
           warehouse := Warehouse.empty
           sonarrInstances := ["main"]
           radarrInstances := []
           allowTitleYearMatch := false }
  links := KeyedTable.empty.upsert ⟨1, "main", .sonarrSeries⟩ ⟨5, .tvdb, .high⟩ id

/-- What it lists. -/
def seriesFiveAndSix : ArrLive where
  labels := KeyedTable.empty.upsert 1 "dub" id
  items := (KeyedTable.empty.upsert 5 ⟨[], true⟩ id).upsert 6 ⟨[1], true⟩ id
  nextTag := 2
  editor := .appending

/-- No tag has been made yet. -/
theorem freshTags_seriesFiveAndSix : seriesFiveAndSix.FreshTags := by
  intro id hid
  have hne : id ≠ 1 := by
    have htwo : (2 : Int) ≤ id := hid
    omega
  rw [seriesFiveAndSix, KeyedTable.row_upsert_of_ne hne, KeyedTable.row_empty]

/-- Somebody changes the monitored flag of both while the run is under way. -/
def dubTagRun : List TagAction :=
  [.ensure, .list, .other (.sonarrSeries, "main") (.setMonitored [5, 6] false), .send, .sent,
    .otherLabel (.sonarrSeries, "main") "kept", .send, .sent]

/-- The other editors of the run leave the tag alone. -/
theorem leavesTag_dubTagRun : ∀ a ∈ dubTagRun, ∀ s, LeavesTag oneDubbedSeries s a := by
  intro a ha s
  cases a with
  | other name e =>
      simp only [dubTagRun, List.mem_cons, List.not_mem_nil, or_false, reduceCtorEq, false_or,
        TagAction.other.injEq] at ha
      obtain ⟨-, rfl⟩ := ha
      exact nofun
  | _ => trivial

/-- A run during which others edit, to its end. -/
theorem dubTags_of_finished_meanwhile :
    ∃ t, replay (malTagStep oneDubbedSeries) dubTagRun
        (TagWorld.start oneDubbedSeries fun _ => seriesFiveAndSix) = some t ∧
      Tagged oneDubbedSeries (.sonarrSeries, "main") (t.arrs (.sonarrSeries, "main")) := by
  obtain ⟨t, hrun, hfinished, herrors⟩ : ∃ t : TagWorld,
      replay (malTagStep oneDubbedSeries) dubTagRun
      (TagWorld.start oneDubbedSeries fun _ => seriesFiveAndSix) = some t ∧ t.stage = .finished ∧
        t.report.errors = [] := ⟨_, rfl, rfl, rfl⟩
  refine ⟨t, hrun, (dubTags_of_finished (fun _ => freshTags_seriesFiveAndSix)
    (reaches_of_replay leavesTag_dubTagRun hrun) hfinished ?_ ?_).1⟩
  · exact List.mem_singleton.mpr rfl
  · intro error herror
    rw [herrors] at herror
    exact absurd herror List.not_mem_nil

/-- The call that adds the tag reaches the Sonarr and raises all the same. -/
theorem dubTags_toward_raises :
    ∃ t, replay (malTagStep oneDubbedSeries) [.ensure, .list, .sendRaises true "timed out"]
        (TagWorld.start oneDubbedSeries fun _ => seriesFiveAndSix) = some t ∧
      ∃ old, seriesFiveAndSix.items.row 5 = some old ∧
        ((1 : Int) ∈ [1] → 1 ∈ old.tags ∨ 5 ∈ oneDubbedSeries.targets (.sonarrSeries, "main")) := by
  obtain ⟨t, hrun, hnew⟩ : ∃ t : TagWorld, replay (malTagStep oneDubbedSeries)
      [.ensure, .list, .sendRaises true "timed out"]
      (TagWorld.start oneDubbedSeries fun _ => seriesFiveAndSix) = some t ∧
        (t.arrs (.sonarrSeries, "main")).items.row 5 = some ⟨[1], true⟩ := ⟨_, rfl, rfl⟩
  have hleaves : ∀ a ∈ [TagAction.ensure, .list, .sendRaises true "timed out"],
      ∀ s, LeavesTag oneDubbedSeries s a := by
    intro a ha s
    cases a with
    | other name e => simp at ha
    | _ => trivial
  obtain ⟨old, hold, hgained, -⟩ := dubTags_toward (fun _ => freshTags_seriesFiveAndSix) rfl
    (reaches_of_replay hleaves hrun) hnew
  exact ⟨t, hrun, old, hold, hgained⟩

end Nebularr
