import Nebularr.AutomationRun
import Nebularr.Completeness
import Nebularr.EditorEffects

/-!
# The sets of a rule, and what they read back

The sets the actions of a rule act on are read off the warehouse, and two of
the scope options read what actions change: `monitored_only` the flag, and
`tags_any` the tags.  So an item is in a set when the warehouse's flag and tags
of it are admitted, and it meets everything else (`Fits`), which no action of
any rule touches.
-/

namespace Nebularr

/-- A scope without the two options that read a flag or a tag. -/
def RuleScope.unflagged (scope : RuleScope) : RuleScope :=
  { scope with monitoredOnly := false, tagsAny := [] }

/-- What a scope asks of the monitored flag and the tags of an item. -/
def RuleScope.Admits (scope : RuleScope) (tagIds : List Int) (monitored : Bool)
    (hasTag : Int → Bool) : Prop :=
  (scope.monitoredOnly = true → monitored = true) ∧
    (scope.tagsAny ≠ [] → ∃ tag ∈ tagIds, 0 ≤ tag ∧ hasTag tag = true)

instance (scope : RuleScope) (tagIds : List Int) (monitored : Bool) (hasTag : Int → Bool) :
    Decidable (scope.Admits tagIds monitored hasTag) := by
  unfold RuleScope.Admits
  infer_instance

theorem holds_tagFragment {tags tagIds : List Int} :
    (tagFragment tags tagIds).Holds ↔ ∃ tag ∈ tagIds, 0 ≤ tag ∧ decide (tag ∈ tags) = true := by
  simp only [tagFragment, Truth.holds_existsRow, Truth.holds_ofBool, Bool.and_eq_true,
    decide_eq_true_eq]
  constructor
  · rintro ⟨tag, hmem, hpos, hwanted⟩
    exact ⟨tag, hwanted, hpos, hmem⟩
  · rintro ⟨tag, hwanted, hpos, hmem⟩
    exact ⟨tag, hmem, hpos, hwanted⟩

/-- It is what the fragments of the two options ask. -/
theorem RuleScope.admits_iff {scope : RuleScope} {tagIds tags : List Int} {monitored : Bool} :
    scope.Admits tagIds monitored (fun tag => decide (tag ∈ tags)) ↔
      (∀ f ∈ if scope.monitoredOnly then [Truth.ofBool monitored] else [], f.Holds) ∧
        ∀ f ∈ if scope.tagsAny ≠ [] then [tagFragment tags tagIds] else [], f.Holds := by
  unfold RuleScope.Admits
  refine and_congr ?_ ?_
  · by_cases hmonitored : scope.monitoredOnly = true <;> simp [hmonitored]
  · by_cases htags : scope.tagsAny = [] <;> simp [htags, holds_tagFragment]

/-- The flag and the tags are all that distinguishes the scope of a series from
the unflagged one. -/
theorem seriesScope_iff {lower : Lowering} {scope : RuleScope} {tagIds : List Int}
    {s : SeriesCols} :
    (∀ f ∈ seriesScopeFragments lower scope tagIds s, f.Holds) ↔
      scope.Admits tagIds s.monitored (fun tag => decide (tag ∈ s.payload.tags)) ∧
        ∀ f ∈ seriesScopeFragments lower scope.unflagged [] s, f.Holds := by
  rw [RuleScope.admits_iff]
  simp only [seriesScopeFragments, RuleScope.unflagged, List.forall_mem_append, ne_eq,
    not_true_eq_false, Bool.false_eq_true, if_false, List.not_mem_nil, false_implies,
    implies_true, true_and, and_true]
  tauto

theorem movieScope_iff {lower : Lowering} {scope : RuleScope} {mal : MalTables}
    {tagIds : List Int} {key : RowKey} {m : MovieCols} :
    (∀ f ∈ movieScopeFragments lower scope mal tagIds key m, f.Holds) ↔
      scope.Admits tagIds m.monitored (fun tag => decide (tag ∈ m.payload.tags)) ∧
        ∀ f ∈ movieScopeFragments lower scope.unflagged mal [] key m, f.Holds := by
  rw [RuleScope.admits_iff]
  simp only [movieScopeFragments, RuleScope.unflagged, List.forall_mem_append, ne_eq,
    not_true_eq_false, Bool.false_eq_true, if_false, List.not_mem_nil, false_implies,
    implies_true, true_and, and_true]
  tauto

/-! ## Which items are in a set -/

/-- A selection that stays below its limit is the whole query. -/
theorem CompiledQuery.select_eq_ordered {q : CompiledQuery} {limit : ℕ}
    (h : (q.select limit).length < limit) : q.select limit = q.ordered := by
  have hlength := List.length_take (l := q.ordered) (i := limit)
  unfold CompiledQuery.select at h ⊢
  apply List.take_of_length_le
  omega

section Sets

variable (params : RuleParams) (c : Catalog) (binds : QueryBinds)

/-- **What the movie query of a rule's actions returns.** -/
theorem mem_movies_iff {ledger : ActionLedger} {sense : Sense} {mid : Int} :
    mid ∈ targetIds .movie sense
        (compileCandidates params.withoutSearch .movie sense c ledger binds).ordered ↔
      ∃ m, c.warehouse.movie.row ⟨mid, binds.instanceName⟩ = some m ∧ m.deleted = false ∧
        (∀ f ∈ movieScopeFragments c.lower params.scope c.mal binds.tagIds ⟨mid, binds.instanceName⟩
          m.cols, f.Holds) ∧
        (params.options.malDubGate = true →
          (dubGate c.mal .radarrMovie binds.instanceName mid).isSome = true) ∧
        ∃ file ∈ movieFiles c.warehouse ⟨mid, binds.instanceName⟩,
          (senseCondition c.lower params.withoutSearch sense m.cols.payload.hasFile
            file).Holds := by
  have hsearch : params.withoutSearch.hasSearch = false := by
    simp [RuleParams.hasSearch_eq]
  have htarget : ∀ rows : List CandidateRow,
      targetIds .movie sense rows = rows.map CandidateRow.sourceId := by
    intro rows
    simp [targetIds]
  rw [htarget, List.mem_map]
  constructor
  · rintro ⟨row, hrow, rfl⟩
    rw [mem_ordered_of_searchless hsearch, baseRows, mem_movieRows_iff] at hrow
    obtain ⟨mid, m, file, dub, hm, hlive, hscope, hfile, hdub, hsense, rfl⟩ := hrow
    exact ⟨m, hm, hlive, hscope, (mem_gateRows _).mp ⟨dub, hdub⟩, file, hfile, hsense⟩
  · rintro ⟨m, hm, hlive, hscope, hgate, file, hfile, hsense⟩
    obtain ⟨dub, hdub⟩ := (mem_gateRows ⟨mid, binds.instanceName⟩).mpr hgate
    exact ⟨_, (mem_ordered_of_searchless hsearch).mpr (mem_movieRows_iff.mpr
      ⟨mid, m, file, dub, hm, hlive, hscope, hfile, hdub, hsense, rfl⟩), rfl⟩

/-- The monitored flag and the tags that the warehouse has of an item. -/
def flagsOnFile (w : Warehouse) (entity : Entity) (key : RowKey) : Option LiveItem :=
  match entity with
  | .movie => (w.movie.cols key).map fun m => ⟨m.payload.tags, m.monitored⟩
  | .episode => (w.series.cols key).map fun s => ⟨s.payload.tags, s.monitored⟩

/-- The scope admits an item with the flag and the tags on file. -/
def AdmittedOnFile (entity : Entity) (i : Int) : Prop :=
  ∃ item, flagsOnFile c.warehouse entity ⟨i, binds.instanceName⟩ = some item ∧
    params.scope.Admits binds.tagIds item.monitored item.hasTag

/-- A live series that is in scope whatever its flag and tags are. -/
def SeriesFits (sid : Int) : Prop :=
  ∃ s, c.warehouse.series.row ⟨sid, binds.instanceName⟩ = some s ∧ s.deleted = false ∧
    (∀ f ∈ seriesScopeFragments c.lower params.scope.unflagged [] s.cols, f.Holds) ∧
    (params.options.malDubGate = true →
      (dubGate c.mal .sonarrSeries binds.instanceName sid).isSome = true)

/-- What a set asks of an item besides its flag and its tags. -/
def Fits (entity : Entity) (sense : Sense) (i : Int) : Prop :=
  match entity, sense with
  | .movie, sense =>
      ∃ m, c.warehouse.movie.row ⟨i, binds.instanceName⟩ = some m ∧ m.deleted = false ∧
        (∀ f ∈ movieScopeFragments c.lower params.scope.unflagged c.mal [] ⟨i,
          binds.instanceName⟩ m.cols,
          f.Holds) ∧
        (params.options.malDubGate = true →
          (dubGate c.mal .radarrMovie binds.instanceName i).isSome = true) ∧
        ∃ file ∈ movieFiles c.warehouse ⟨i, binds.instanceName⟩,
          (senseCondition c.lower params.withoutSearch sense m.cols.payload.hasFile file).Holds
  | .episode, .conforming =>
      SeriesFits params c binds i ∧ (∃ key e, CountingEpisode params c binds i key e) ∧
        ¬ HasFailingEpisode params c binds i
  | .episode, .nonConforming =>
      SeriesFits params c binds i ∧ HasFailingEpisode params c binds i

theorem seriesInScope_iff {sid : Int} :
    SeriesInScope params c binds sid ↔
      AdmittedOnFile params c binds .episode sid ∧ SeriesFits params c binds sid := by
  constructor
  · rintro ⟨s, hrow, hlive, hscope, hgate⟩
    obtain ⟨hadmits, hrest⟩ := seriesScope_iff.mp hscope
    refine ⟨⟨⟨s.cols.payload.tags, s.cols.monitored⟩, ?_, hadmits⟩, s, hrow, hlive, hrest, hgate⟩
    simp [flagsOnFile, KeyedTable.cols, hrow]
  · rintro ⟨⟨item, hitem, hadmits⟩, s, hrow, hlive, hrest, hgate⟩
    simp only [flagsOnFile, KeyedTable.cols, hrow, Option.map_some] at hitem
    obtain rfl := Option.some.inj hitem
    exact ⟨s, hrow, hlive, seriesScope_iff.mpr ⟨hadmits, hrest⟩, hgate⟩

/-- **An item is in a set when its flag and tags are admitted and it fits.** -/
theorem mem_targets_iff {ledger : ActionLedger} {entity : Entity} {sense : Sense} {i : Int} :
    i ∈ targetIds entity sense
        (compileCandidates params.withoutSearch entity sense c ledger binds).ordered ↔
      AdmittedOnFile params c binds entity i ∧ Fits params c binds entity sense i := by
  cases entity with
  | movie =>
      rw [mem_movies_iff]
      constructor
      · rintro ⟨m, hrow, hlive, hscope, hgate, hfile⟩
        obtain ⟨hadmits, hrest⟩ := movieScope_iff.mp hscope
        refine ⟨⟨⟨m.cols.payload.tags, m.cols.monitored⟩, ?_, hadmits⟩, m, hrow, hlive, hrest,
          hgate, hfile⟩
        simp [flagsOnFile, KeyedTable.cols, hrow]
      · rintro ⟨⟨item, hitem, hadmits⟩, m, hrow, hlive, hrest, hgate, hfile⟩
        simp only [flagsOnFile, KeyedTable.cols, hrow, Option.map_some] at hitem
        obtain rfl := Option.some.inj hitem
        exact ⟨m, hrow, hlive, movieScope_iff.mpr ⟨hadmits, hrest⟩, hgate, hfile⟩
  | episode =>
      cases sense with
      | conforming =>
          rw [mem_complete_iff]
          constructor
          · rintro ⟨hin, hrest⟩
            obtain ⟨hadmits, hfits⟩ := (seriesInScope_iff params c binds).mp hin
            exact ⟨hadmits, hfits, hrest⟩
          · rintro ⟨hadmits, hfits, hrest⟩
            exact ⟨(seriesInScope_iff params c binds).mpr ⟨hadmits, hfits⟩, hrest⟩
      | nonConforming =>
          rw [mem_failing_iff, seriesInScope_iff, and_assoc]
          rfl

end Sets

end Nebularr
