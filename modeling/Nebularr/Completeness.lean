import Nebularr.Candidates

/-!
# Complete and failing series

Whether a show is complete is compiled twice: as an anti-join over series, and
as a row predicate over episodes whose owners are the failing shows.  The two
share their scope conditions, and the anti-join negates the same row predicate
a second time.  So they split the shows in scope exactly as long as that
predicate is never unknown, which is what the `coalesce` around each nullable
column is for.
-/

namespace Nebularr

variable (params : RuleParams) (c : Catalog) (binds : QueryBinds)

/-- A live series that meets the rule's scope conditions and its dub gate. -/
def SeriesInScope (sid : Int) : Prop :=
  ∃ s, c.warehouse.series.row ⟨sid, binds.instanceName⟩ = some s ∧ s.deleted = false ∧
    (∀ f ∈ seriesScopeFragments c.lower params.scope binds.tagIds s.cols, f.Holds) ∧
    (params.options.malDubGate = true →
      (dubGate c.mal .sonarrSeries binds.instanceName sid).isSome = true)

/-- An episode of the series counts: aired, live, and inside the rule's
episode scope. -/
def CountingEpisode (sid : Int) (key : RowKey) (e : SoftRow EpisodeCols) : Prop :=
  c.warehouse.episode.row key = some e ∧
    (episodeInScope params.scope binds.now ⟨sid, binds.instanceName⟩ key e).Holds

/-- An episode of the series counts and fails with some file it is joined
with. -/
def HasFailingEpisode (sid : Int) : Prop :=
  ∃ key e, CountingEpisode params c binds sid key e ∧
    ∃ file ∈ episodeFiles c.warehouse key e.cols,
      ¬ (conformingRow c.lower params.require e.cols.payload.hasFile file).Holds

/-- **Conformance is never unknown.**  Every nullable column of the joined file
stands under a `coalesce`. -/
theorem definite_conformingRow (lower : Lowering) (require : RuleRequire)
    (hasFile : Option Bool) (file : Option MediaCols) :
    (conformingRow lower require hasFile file).Definite := by
  refine Truth.Definite.all ?_
  intro t ht
  rcases List.mem_cons.mp ht with rfl | ht
  · exact Truth.definite_ofBool _
  rcases List.mem_cons.mp ht with rfl | ht
  · exact Truth.definite_ofBool _
  · simp only [requireFragments, List.mem_append] at ht
    cases hres : require.resolutionMin <;> grind [Truth.definite_ofBool, Truth.definite_existsRow]

theorem holds_not_conformingRow {lower : Lowering} {require : RuleRequire}
    {hasFile : Option Bool} {file : Option MediaCols} :
    (conformingRow lower require hasFile file).not.Holds ↔
      ¬ (conformingRow lower require hasFile file).Holds :=
  Truth.holds_not_iff (definite_conformingRow lower require hasFile file)

/-- The conditions of a counting episode, apart from which series it is of. -/
theorem countingEpisode_iff {sid : Int} {key : RowKey} {e : SoftRow EpisodeCols} :
    CountingEpisode params c binds sid key e ↔
      c.warehouse.episode.row key = some e ∧ e.cols.seriesSourceId = sid ∧
        key.instanceName = binds.instanceName ∧
        ∀ f ∈ episodeScopeFragments params.scope binds.now e, f.Holds := by
  simp [CountingEpisode, episodeInScope]

/-- The anti-join of the completeness query. -/
theorem holds_not_existsFailing {sid : Int} :
    (Truth.existsRow c.warehouse.episode.rows.entries fun e =>
      .existsRow (episodeFiles c.warehouse e.1 e.2.cols) fun file =>
        (episodeInScope params.scope binds.now ⟨sid, binds.instanceName⟩ e.1 e.2).and
          (conformingRow c.lower params.require e.2.cols.payload.hasFile file).not).not.Holds ↔
      ¬ HasFailingEpisode params c binds sid := by
  rw [Truth.holds_not_iff (Truth.definite_existsRow _ _), not_iff_not]
  simp only [Truth.holds_existsRow, Truth.holds_and, holds_not_conformingRow]
  constructor
  · rintro ⟨⟨key, e⟩, hmem, file, hfile, hscope, hfails⟩
    exact ⟨key, e, ⟨KeyedTable.row_eq_some_iff.mpr hmem, hscope⟩, file, hfile, hfails⟩
  · rintro ⟨key, e, ⟨hrow, hscope⟩, file, hfile, hfails⟩
    exact ⟨⟨key, e⟩, KeyedTable.row_eq_some_iff.mp hrow, file, hfile, hscope, hfails⟩

/-- **What the completeness query returns.** -/
theorem mem_complete_iff {ledger : ActionLedger} {sid : Int} :
    sid ∈ targetIds .episode .conforming
        (compileCandidates params .episode .conforming c ledger binds).ordered ↔
      SeriesInScope params c binds sid ∧
        (∃ key e, CountingEpisode params c binds sid key e) ∧
        ¬ HasFailingEpisode params c binds sid := by
  have htarget : ∀ rows : List CandidateRow,
      targetIds .episode .conforming rows = rows.map CandidateRow.sourceId := by
    intro rows
    simp [targetIds]
  rw [htarget, List.mem_map]
  constructor
  · rintro ⟨row, hrow, rfl⟩
    rw [mem_ordered_conforming, baseRows, mem_whereHolds] at hrow
    obtain ⟨joined, hjoined, hall, rfl⟩ := hrow
    obtain ⟨⟨⟨sid, inst⟩, s⟩, hs, hgate⟩ := List.mem_flatMap.mp hjoined
    obtain ⟨dub, hdub, rfl⟩ := List.mem_map.mp hgate
    simp only [List.mem_append, List.mem_cons, List.not_mem_nil, or_false] at hall
    have hlive := Truth.holds_ofBool.mp (hall _ (Or.inl (Or.inl (Or.inl rfl))))
    have hinst := Truth.holds_ofBool.mp (hall _ (Or.inl (Or.inl (Or.inr rfl))))
    obtain rfl : inst = binds.instanceName := of_decide_eq_true hinst
    have hexists := Truth.holds_existsRow.mp (hall _ (Or.inr (Or.inl rfl)))
    have hnone := (holds_not_existsFailing params c binds).mp (hall _ (Or.inr (Or.inr rfl)))
    refine ⟨⟨s, KeyedTable.row_eq_some_iff.mpr hs, by simpa using hlive, ?_, ?_⟩, ?_, hnone⟩
    · intro f hf
      exact hall f (Or.inl (Or.inr hf))
    · exact (mem_gateRows _).mp ⟨dub, hdub⟩
    · obtain ⟨⟨key, e⟩, hmem, hscope⟩ := hexists
      exact ⟨key, e, KeyedTable.row_eq_some_iff.mpr hmem, hscope⟩
  · rintro ⟨⟨s, hs, hlive, hscope, hgate⟩, ⟨key, e, he, hcounts⟩, hnone⟩
    obtain ⟨dub, hdub⟩ := (mem_gateRows ⟨sid, binds.instanceName⟩).mpr hgate
    refine ⟨_, mem_ordered_conforming.mpr (mem_whereHolds.mpr ⟨_, List.mem_flatMap.mpr
      ⟨⟨⟨sid, binds.instanceName⟩, s⟩, KeyedTable.row_eq_some_iff.mp hs,
        List.mem_map.mpr ⟨dub, hdub, rfl⟩⟩, ?_, rfl⟩), rfl⟩
    intro f hf
    simp only [List.mem_append, List.mem_cons, List.not_mem_nil, or_false] at hf
    rcases hf with ((rfl | rfl) | hf) | rfl | rfl
    · simp [hlive]
    · simp
    · exact hscope f hf
    · exact Truth.holds_existsRow.mpr ⟨⟨key, e⟩, KeyedTable.row_eq_some_iff.mp he, hcounts⟩
    · exact (holds_not_existsFailing params c binds).mpr hnone

/-- A rule without search actions fails what does not conform. -/
theorem holds_senseCondition_withoutSearch {lower : Lowering} {hasFile : Option Bool}
    {file : Option MediaCols} :
    (senseCondition lower params.withoutSearch .nonConforming hasFile file).Holds ↔
      ¬ (conformingRow lower params.require hasFile file).Holds := by
  rw [← holds_not_conformingRow]
  simp only [senseCondition, RuleParams.wantsMissing_withoutSearch,
    RuleParams.wantsUpgrade_withoutSearch, Bool.false_eq_true, if_false, List.append_nil, if_true]
  rfl

/-- **What the failing-episode query returns**, once its rows stand for their
series. -/
theorem mem_failing_iff {ledger : ActionLedger} {sid : Int} :
    sid ∈ targetIds .episode .nonConforming
        (compileCandidates params.withoutSearch .episode .nonConforming c ledger binds).ordered ↔
      SeriesInScope params c binds sid ∧ HasFailingEpisode params c binds sid := by
  have hsearch : params.withoutSearch.hasSearch = false := by
    simp [RuleParams.hasSearch_eq]
  have htarget : ∀ rows : List CandidateRow,
      targetIds .episode .nonConforming rows = rows.filterMap CandidateRow.seriesSourceId := by
    intro rows
    simp [targetIds]
  rw [htarget, List.mem_filterMap]
  constructor
  · rintro ⟨row, hrow, hsid⟩
    rw [mem_ordered_of_searchless hsearch, baseRows, mem_episodeRows_iff] at hrow
    obtain ⟨eid, e, s, file, dub, he, hs, hepisode, hscope, hfile, hdub, hsense, rfl⟩ := hrow
    obtain rfl : e.cols.seriesSourceId = sid := Option.some.inj hsid
    have hfails := (holds_senseCondition_withoutSearch params).mp hsense
    have hseries : ∃ row, c.warehouse.series.row ⟨e.cols.seriesSourceId, binds.instanceName⟩ =
        some row ∧ row.deleted = false ∧ row.cols = s := by
      simpa [joinedSeries, and_assoc] using hs
    obtain ⟨row, hrow, hlive, rfl⟩ := hseries
    refine ⟨⟨row, hrow, hlive, hscope, (mem_gateRows _).mp ⟨dub, hdub⟩⟩,
      ⟨eid, binds.instanceName⟩, e, ?_, file, hfile, hfails⟩
    rw [countingEpisode_iff]
    exact ⟨he, rfl, rfl, hepisode⟩
  · rintro ⟨⟨s, hs, hlive, hscope, hgate⟩, ⟨eid, inst⟩, e, hcounts, file, hfile, hfails⟩
    rw [countingEpisode_iff] at hcounts
    obtain ⟨he, rfl, rfl, hepisode⟩ := hcounts
    obtain ⟨dub, hdub⟩ :=
      (mem_gateRows ⟨e.cols.seriesSourceId, binds.instanceName⟩).mpr hgate
    have hseries : joinedSeries c.warehouse ⟨eid, binds.instanceName⟩ e.cols = some s.cols := by
      simp [joinedSeries, hs, hlive]
    have hsense := (holds_senseCondition_withoutSearch params).mpr hfails
    exact ⟨_, (mem_ordered_of_searchless hsearch).mpr (mem_episodeRows_iff.mpr
      ⟨eid, e, s.cols, file, dub, he, hseries, hepisode, hscope, hfile, hdub, hsense, rfl⟩), rfl⟩

/-- **Completeness is the exact complement.**  On every warehouse state the
complete series and the owners of failing episodes are disjoint, and together
they are the live series in scope with an episode that counts. -/
theorem complete_xor_failing (ledger : ActionLedger) :
    let complete := targetIds .episode .conforming
      (compileCandidates params .episode .conforming c ledger binds).ordered
    let failing := targetIds .episode .nonConforming
      (compileCandidates params.withoutSearch .episode .nonConforming c ledger binds).ordered
    (∀ sid, ¬ (sid ∈ complete ∧ sid ∈ failing)) ∧
      ∀ sid, sid ∈ complete ∨ sid ∈ failing ↔
        SeriesInScope params c binds sid ∧ ∃ key e, CountingEpisode params c binds sid key e := by
  intro complete failing
  have hcomplete : ∀ sid, sid ∈ complete ↔ _ := fun sid => mem_complete_iff params c binds
  have hfailing : ∀ sid, sid ∈ failing ↔ _ := fun sid => mem_failing_iff params c binds
  constructor
  · rintro sid ⟨hc, hf⟩
    exact ((hcomplete sid).mp hc).2.2 ((hfailing sid).mp hf).2
  · intro sid
    rw [hcomplete, hfailing]
    constructor
    · rintro (⟨hscope, hcounts, -⟩ | ⟨hscope, key, e, hcounts, -⟩)
      · exact ⟨hscope, hcounts⟩
      · exact ⟨hscope, key, e, hcounts⟩
    · rintro ⟨hscope, hcounts⟩
      by_cases hfails : HasFailingEpisode params c binds sid
      · exact Or.inr ⟨hscope, hfails⟩
      · exact Or.inl ⟨hscope, hcounts, hfails⟩

end Nebularr
