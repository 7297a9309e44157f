import Nebularr.NewDub

/-!
# What a run records as seen

A row is fresh for a rule until its `mal_id` has been recorded, and a visit
that goes through records the `mal_id` of every row it selected.  All episodes
of a series share one, and so may items of several instances; a search is of
one item.  So a run can record a dub that it searched for one of these items
only.  It never does exactly when its limits and its failures treat the rows of
a `mal_id` alike, which is a matter of its rows, its budget and what fails.
-/

namespace Nebularr

/-! ## Rows with a dub -/

theorem dubStatus_of_dubGate {mal : MalTables} {arrEntity : ArrEntity} {inst : String}
    {sourceId : Int} {dub : DubRow} (h : dubGate mal arrEntity inst sourceId = some dub) :
    dub.dubStatus ≠ .noDub := by
  have hsorted := List.mem_of_mem_head? h
  have hmem := (List.mem_insertionSort dubOrder).mp hsorted
  obtain ⟨link, -, hlink⟩ := List.mem_filterMap.mp hmem
  split at hlink
  · obtain ⟨status, hstatus, rfl⟩ := Option.map_eq_some_iff.mp hlink
    exact of_decide_eq_true (Option.filter_eq_some_iff.mp hstatus).2
  · cases hlink

theorem dubStatus_of_gateRows {options : RuleOptions} {mal : MalTables} {arrEntity : ArrEntity}
    {key : RowKey} {dub : DubRow} (h : some dub ∈ gateRows options mal arrEntity key) :
    dub.dubStatus ≠ .noDub := by
  unfold gateRows at h
  split at h
  · obtain ⟨d, hd, hdub⟩ := List.mem_map.mp h
    obtain rfl := Option.some.inj hdub
    exact dubStatus_of_dubGate (Option.mem_toList.mp hd)
  · simp at h

/-- **The dub a candidate row shows is a dub.** -/
theorem dubStatus_of_baseRows {params : RuleParams} {entity : Entity} {sense : Sense} {c : Catalog}
    {binds : QueryBinds} {row : CandidateRow} {dub : DubRow}
    (h : row ∈ baseRows params entity sense c binds) (hdub : row.dub = some dub) :
    dub.dubStatus ≠ .noDub := by
  have hmovie : ∀ sense, row ∈ whereHolds (movieJoins params sense c binds) →
      dub.dubStatus ≠ .noDub := by
    intro sense hrow
    obtain ⟨mid, m, file, d, -, -, -, -, hd, -, rfl⟩ := mem_movieRows_iff.mp hrow
    obtain rfl : d = some dub := hdub
    exact dubStatus_of_gateRows hd
  cases entity with
  | movie => exact hmovie sense h
  | episode =>
      cases sense with
      | nonConforming =>
          obtain ⟨eid, e, s, file, d, -, -, -, -, -, hd, -, rfl⟩ := mem_episodeRows_iff.mp h
          obtain rfl : d = some dub := hdub
          exact dubStatus_of_gateRows hd
      | conforming =>
          obtain ⟨joined, hjoined, -, rfl⟩ := mem_whereHolds.mp h
          obtain ⟨⟨key, s⟩, -, hjoined⟩ := List.mem_flatMap.mp hjoined
          obtain ⟨d, -, rfl⟩ := List.mem_map.mp hjoined
          cases hdub

/-- A row with a dub that is selected now is selected later: what has aired
stays aired. -/
theorem baseRows_mono {params : RuleParams} {entity : Entity} {sense : Sense} {c : Catalog}
    {binds : QueryBinds} {later : Int} {row : CandidateRow} (hlater : binds.now ≤ later)
    (hdub : row.dub.isSome = true) (h : row ∈ baseRows params entity sense c binds) :
    row ∈ baseRows params entity sense c { binds with now := later } := by
  cases entity with
  | movie => exact h
  | episode =>
      cases sense with
      | conforming =>
          obtain ⟨joined, hjoined, -, rfl⟩ := mem_whereHolds.mp h
          obtain ⟨⟨key, s⟩, -, hjoined⟩ := List.mem_flatMap.mp hjoined
          obtain ⟨d, -, rfl⟩ := List.mem_map.mp hjoined
          cases hdub
      | nonConforming =>
          obtain ⟨eid, e, s, file, d, he, hs, hepisode, hrest⟩ := mem_episodeRows_iff.mp h
          refine mem_episodeRows_iff.mpr ⟨eid, e, s, file, d, he, hs, ?_, hrest⟩
          intro f hf
          simp only [episodeScopeFragments, List.cons_append, List.nil_append,
            List.mem_cons] at hf hepisode
          rcases hf with rfl | rfl | rfl | hother
          · exact hepisode _ (Or.inl rfl)
          · exact hepisode _ (Or.inr (Or.inl rfl))
          · have hbefore := hepisode _ (Or.inr (Or.inr (Or.inl rfl)))
            rw [Truth.holds_onColumn] at hbefore ⊢
            obtain ⟨date, hdate, hle⟩ := hbefore
            have hle := of_decide_eq_true hle
            exact ⟨date, hdate, decide_eq_true (by omega)⟩
          · exact hepisode f (Or.inr (Or.inr (Or.inr hother)))

/-- Past its cooldown, an item stays so while nobody searches it. -/
theorem pastCooldown_mono {binds : QueryBinds} {later : Int} (hlater : binds.now ≤ later)
    {fired : Option Int} (h : (pastCooldown binds fired).Holds) :
    (pastCooldown { binds with now := later } fired).Holds := by
  unfold pastCooldown at h ⊢
  rw [Truth.holds_or, Truth.holds_onColumn] at h ⊢
  rcases h with hnone | ⟨time, hfired, hpast⟩
  · exact Or.inl hnone
  · have hpast := of_decide_eq_true hpast
    exact Or.inr ⟨time, hfired, decide_eq_true (by simp only; omega)⟩

/-! ## What a run leaves for the next one -/

section Run

variable {env : RunEnv} {a : Automation} {runId : ℕ} {v : Visit} {p : RunProgress}

/-- What a visit recorded it had sent. -/
theorem mem_sent_of_recorded {i : Int} (h : i ∈ visitRecorded env a v p) :
    i ∈ (visitSent env a v p).flatten := by
  unfold visitRecorded at h
  split at h
  · next hdone =>
      rw [visitSent_of_completes env a v p hdone.1 hdone.2, flatten_slices]
      exact h
  · cases h

theorem sentTo_subset_runThrough {visits : List Visit} :
    ∀ {p : RunProgress}, sentTo v p ⊆ sentTo v (runThrough env a runId visits p) := by
  induction visits with
  | nil => exact fun {_} _ h => h
  | cons u rest ih =>
      intro p i hi
      refine ih ?_
      rw [sentTo_runInstance]
      exact List.mem_append_left _ hi

/-- **The ledger row of an item that was not searched is as it was.** -/
theorem row_of_not_sent {visits : List Visit} {i : Int} :
    ∀ {p : RunProgress}, i ∉ sentTo v (runThrough env a runId visits p) →
      (runThrough env a runId visits p).ledger.row (v.item i) = p.ledger.row (v.item i) := by
  induction visits with
  | nil => exact fun {_} _ => rfl
  | cons u rest ih =>
      intro p h
      rw [runThrough_cons] at h ⊢
      rw [ih h, row_runInstance, if_neg]
      intro hrecorded
      obtain ⟨j, hj, hkey⟩ := List.mem_map.mp hrecorded
      obtain ⟨rfl, rfl⟩ := Visit.item_inj hkey
      refine h (sentTo_subset_runThrough ?_)
      rw [sentTo_runInstance, if_pos rfl]
      exact List.mem_append_right _ (mem_sent_of_recorded hj)

/-- **What a run observes**: the rows selected by its visits that went
through. -/
theorem mem_observed_iff (hnew : a.rule.options.newDubOnly = true) {visits : List Visit}
    {dub : DubRow} :
    ∀ {p : RunProgress}, dub ∈ (runThrough env a runId visits p).observed ↔
      dub ∈ p.observed ∨ ∃ before u after, visits = before ++ u :: after ∧
        VisitCompletes env a u (runThrough env a runId before p) ∧
          ∃ row ∈ selectedRows env a u (runThrough env a runId before p),
            row.dub = some dub := by
  induction visits with
  | nil =>
      intro p
      simp [runThrough_nil]
  | cons v rest ih =>
      intro p
      have hone : dub ∈ (runInstance env a runId v p).observed ↔ dub ∈ p.observed ∨
          (VisitCompletes env a v p ∧ ∃ row ∈ selectedRows env a v p, row.dub = some dub) := by
        rw [(runInstance_spec env a runId v p).2.2.2, List.mem_append]
        by_cases hdone : VisitCompletes env a v p
        · simp [hdone, observations, hnew]
        · simp [hdone]
      rw [runThrough_cons, ih, hone]
      constructor
      · rintro ((hold | hhere) | ⟨before, u, after, rfl, hlater⟩)
        · exact Or.inl hold
        · exact Or.inr ⟨[], v, rest, rfl, hhere⟩
        · exact Or.inr ⟨v :: before, u, after, rfl, hlater⟩
      · rintro (hold | ⟨before, u, after, hsplit, hlater⟩)
        · exact Or.inl (Or.inl hold)
        · cases before with
          | nil =>
              obtain ⟨rfl, rfl⟩ := List.cons_eq_cons.mp hsplit
              exact Or.inl (Or.inr hlater)
          | cons w before =>
              obtain ⟨rfl, rfl⟩ := List.cons_eq_cons.mp hsplit
              exact Or.inr ⟨before, u, after, rfl, hlater⟩

end Run

/-- Not yet recorded as having a dub. -/
def Unseen (seen : Int → Option DubStatus) (malId : Int) : Prop :=
  seen malId = none ∨ seen malId = some .noDub

theorem isFresh_iff {seen : Int → Option DubStatus} {row : CandidateRow} {dub : DubRow}
    (hdub : row.dub = some dub) (hstatus : dub.dubStatus ≠ .noDub) :
    isFresh seen row = true ↔ Unseen seen dub.malId := by
  simp [isFresh, hdub, hstatus, Unseen]

theorem exists_dub_of_isFresh {seen : Int → Option DubStatus} {row : CandidateRow}
    (h : isFresh seen row = true) : ∃ dub, row.dub = some dub := by
  cases hdub : row.dub with
  | none => simp [isFresh, hdub] at h
  | some dub => exact ⟨dub, rfl⟩

/-- Among observations of dubs, an unseen `mal_id` stays unseen when it was
not observed. -/
theorem unseen_mergedSeen_iff {seen : Int → Option DubStatus} {observed : List DubRow} {malId : Int}
    (hunseen : Unseen seen malId) (hdubs : ∀ dub ∈ observed, dub.dubStatus ≠ .noDub) :
    Unseen (mergedSeen seen observed) malId ↔ ∀ dub ∈ observed, dub.malId ≠ malId := by
  unfold Unseen mergedSeen
  cases hfind : observed.reverse.find? fun dub => dub.malId = malId with
  | none =>
      have hnone : ∀ dub ∈ observed, dub.malId ≠ malId := by
        intro dub hdub
        have hmiss := List.find?_eq_none.mp hfind dub (List.mem_reverse.mpr hdub)
        simpa using hmiss
      exact ⟨fun _ => hnone, fun _ => by simpa [Unseen] using hunseen⟩
  | some dub =>
      have hmem := List.mem_reverse.mp (List.mem_of_find?_eq_some hfind)
      have hid : dub.malId = malId := by simpa using List.find?_some hfind
      have hstatus := hdubs dub hmem
      constructor
      · intro h
        simp [hstatus] at h
      · intro h
        exact absurd hid (h dub hmem)

/-! ## Transitions and searches -/

section Transitions

variable (env : RunEnv) (a : Automation) (runId : ℕ) (ledger : ActionLedger)
  (arr : Visit → ArrLive)

/-- The run's progress when it gets to a visit. -/
def progressAt (before : List Visit) : RunProgress :=
  runThrough env a runId before (runStart env a ledger arr)

/-- What was fresh and not searched is a fresh candidate of the next run. -/
def KeepsUnsearchedFresh : Prop :=
  ∀ before v after, runVisits env a = before ++ v :: after →
    ∀ row ∈ (visitQuery env a v (progressAt env a runId ledger arr before)).ordered,
      isFresh a.dubStatusSeen row = true →
      row.sourceId ∉ sentTo v (runEnd env a runId ledger arr) →
      ∀ later, env.now (.select v) ≤ later →
        row ∈ (compileCandidates a.rule.toRuleParams v.entity a.rule.primarySense (env.catalog v)
          (runEnd env a runId ledger arr).ledger
          { visitBinds env a v (progressAt env a runId ledger arr before) with
            now := later }).ordered ∧
        isFresh (runSeen env a (runEnd env a runId ledger arr)) row = true

/-- An item within the limit of a visit is searched: no command raises before the
one it is in, and the instance takes that one on. -/
def Searched (v : Visit) (left : ℕ) (i : Int) : Prop :=
  ∃ n chunk, (slices commandSearchChunk (itemsToSearch env a ledger arr v left))[n]? = some chunk ∧
    i ∈ chunk ∧ (∀ m < n, (env.command v m).error = none) ∧ 0 < (env.command v n).accepted

/-- When a visit goes through with a row of a `mal_id` within its limit, then every
fresh eligible row of that `mal_id`, wherever it is, is of an item that is
searched. -/
def NeverSplitsMalId : Prop :=
  ∀ before u after before' v after', runVisits env a = before ++ u :: after →
    runVisits env a = before' ++ v :: after' →
    VisitSelects env a u →
    GoesThrough env u (itemsToSearch env a ledger arr u (budgetLeft env a ledger arr before)) →
    ∀ row ∈ rowsWithin env a ledger arr u (budgetLeft env a ledger arr before),
      ∀ row' ∈ eligibleRows env a ledger arr v, isFresh a.dubStatusSeen row' = true →
        row'.dub.map DubRow.malId = row.dub.map DubRow.malId →
        Searched env a ledger arr v (budgetLeft env a ledger arr before') row'.sourceId

variable {env a runId ledger arr}

/-- The dubs a run has observed are dubs. -/
theorem dubStatus_of_observed (hnew : a.rule.options.newDubOnly = true) {dub : DubRow}
    (h : dub ∈ (runEnd env a runId ledger arr).observed) : dub.dubStatus ≠ .noDub := by
  rcases (mem_observed_iff hnew).mp h with hstart | ⟨before, u, after, -, -, row, hrow, hdub⟩
  · cases hstart
  · have hordered := CompiledQuery.mem_of_mem_select hrow
    exact dubStatus_of_baseRows (mem_ordered_iff.mp hordered).1 hdub

/-- An eligible row with a dub that is not searched stays eligible. -/
theorem stays_eligible {before after : List Visit} {v : Visit}
    (hvisit : runVisits env a = before ++ v :: after) {row : CandidateRow}
    (hrow : row ∈ (visitQuery env a v (progressAt env a runId ledger arr before)).ordered)
    (hdub : row.dub.isSome = true)
    (hunsent : row.sourceId ∉ sentTo v (runEnd env a runId ledger arr)) {later : Int}
    (hlater : env.now (.select v) ≤ later) :
    row ∈ (compileCandidates a.rule.toRuleParams v.entity a.rule.primarySense (env.catalog v)
      (runEnd env a runId ledger arr).ledger
      { visitBinds env a v (progressAt env a runId ledger arr before) with
        now := later }).ordered := by
  obtain ⟨hbase, hcool⟩ := mem_ordered_iff.mp hrow
  have hend : runEnd env a runId ledger arr =
      runThrough env a runId (v :: after) (progressAt env a runId ledger arr before) := by
    rw [runEnd, hvisit, runThrough_append]
    rfl
  have hledger : (runEnd env a runId ledger arr).ledger.row (v.item row.sourceId) =
      (progressAt env a runId ledger arr before).ledger.row (v.item row.sourceId) := by
    rw [hend] at hunsent ⊢
    exact row_of_not_sent hunsent
  refine mem_ordered_iff.mpr ⟨baseRows_mono hlater hdub hbase, ?_⟩
  intro hsearch hsense
  have htime : ∀ t : ActionLedger,
      t.row (v.item row.sourceId) =
        (progressAt env a runId ledger arr before).ledger.row (v.item row.sourceId) →
      ledgerTime a.rule.toRuleParams v.entity a.rule.primarySense t v.instanceName row =
        ledgerTime a.rule.toRuleParams v.entity a.rule.primarySense
          (progressAt env a runId ledger arr before).ledger v.instanceName row := by
    intro t ht
    have hkey : v.item row.sourceId = ⟨v.instanceName, v.entity, row.sourceId⟩ := rfl
    rw [hkey] at ht
    rw [ledgerTime, ledgerTime, ht]
  have hpast := hcool hsearch hsense
  show (pastCooldown _ (ledgerTime _ _ _ _ v.instanceName row)).Holds
  rw [htime _ hledger]
  exact pastCooldown_mono hlater hpast

/-- What a visit sends is what is searched by its plan. -/
theorem searched_iff {before after : List Visit} {v : Visit}
    (hsplit : runVisits env a = before ++ v :: after) {i : Int} :
    i ∈ sentTo v (runEnd env a runId ledger arr) ↔
      Searched env a ledger arr v (budgetLeft env a ledger arr before) i := by
  obtain ⟨hleft, huntouched⟩ := plan_of_split runId ledger arr hsplit
  rw [sentTo_runEnd hsplit, visitSent, huntouched.commands, hleft, List.mem_flatten]
  constructor
  · intro h
    obtain ⟨chunk, hchunk, hi⟩ := h
    obtain ⟨n, hn, hbefore, hpos⟩ := mem_searchItems_iff.mp hchunk
    exact ⟨n, chunk, hn, hi, hbefore, hpos⟩
  · intro h
    obtain ⟨n, chunk, hn, hi, hbefore, hpos⟩ := h
    exact ⟨chunk, mem_searchItems_iff.mpr ⟨n, hn, hbefore, hpos⟩, hi⟩

/-- **What a run observes, by its plan**: the rows within the limits of the visits
that go through. -/
theorem mem_observed_runEnd_iff (hnew : a.rule.options.newDubOnly = true) {dub : DubRow} :
    dub ∈ (runEnd env a runId ledger arr).observed ↔
      ∃ before u after, runVisits env a = before ++ u :: after ∧ VisitSelects env a u ∧
        GoesThrough env u (itemsToSearch env a ledger arr u (budgetLeft env a ledger arr before)) ∧
          ∃ row ∈ rowsWithin env a ledger arr u (budgetLeft env a ledger arr before),
            row.dub = some dub := by
  have hstart : dub ∉ (runStart env a ledger arr).observed := List.not_mem_nil
  refine (mem_observed_iff hnew).trans ((or_iff_right hstart).trans ?_)
  refine exists_congr fun before => exists_congr fun u => exists_congr fun after => ?_
  refine and_congr_right fun hsplit => ?_
  obtain ⟨hleft, huntouched⟩ := plan_of_split runId ledger arr hsplit
  rw [huntouched.completes_iff, huntouched.selectedRows, hleft, and_assoc]

/-- **A new dub is recorded only with its searches, exactly.**  What was fresh
and not searched stays fresh for the next run exactly when the run does not
store its observations, or never splits the rows of a `mal_id`. -/
theorem keepsUnsearchedFresh_iff (env : RunEnv) (a : Automation) (runId : ℕ)
    (ledger : ActionLedger) (arr : Visit → ArrLive)
    (hnew : a.rule.options.newDubOnly = true) :
    KeepsUnsearchedFresh env a runId ledger arr ↔
      runMerges env a = false ∨ NeverSplitsMalId env a ledger arr := by
  have hrows : ∀ before v after, runVisits env a = before ++ v :: after →
      (visitQuery env a v (progressAt env a runId ledger arr before)).ordered =
        eligibleRows env a ledger arr v := fun before v after hsplit =>
    (plan_of_split runId ledger arr hsplit).2.ordered
  constructor
  · intro hkeeps
    by_cases hmerges : runMerges env a = false
    · exact Or.inl hmerges
    · right
      intro before u after before' v after' hu hv hselects hdone row hrow row' hrow' hfresh hsame
      by_contra hunsearched
      have hunsent : row'.sourceId ∉ sentTo v (runEnd env a runId ledger arr) :=
        fun hsent => hunsearched ((searched_iff hv).mp hsent)
      rw [← hrows before' v after' hv] at hrow'
      obtain ⟨-, hstill⟩ := hkeeps before' v after' hv row' hrow' hfresh hunsent _ (Int.le_refl _)
      obtain ⟨dub', hdub'⟩ := exists_dub_of_isFresh hfresh
      obtain ⟨dub, hdub, hid⟩ : ∃ dub, row.dub = some dub ∧ dub.malId = dub'.malId := by
        rw [hdub'] at hsame
        obtain ⟨dub, hdub, hid⟩ := Option.map_eq_some_iff.mp hsame.symm
        exact ⟨dub, hdub, hid⟩
      have hstatus' := dubStatus_of_baseRows (mem_ordered_iff.mp hrow').1 hdub'
      rw [isFresh_iff hdub' hstatus', runSeen, if_pos (Bool.eq_true_of_not_eq_false hmerges),
        unseen_mergedSeen_iff ((isFresh_iff hdub' hstatus').mp hfresh)
          (fun dub hmem => dubStatus_of_observed hnew hmem)] at hstill
      refine hstill dub ?_ hid
      exact (mem_observed_runEnd_iff hnew).mpr
        ⟨before, u, after, hu, hselects, hdone, row, hrow, hdub⟩
  · intro hcond before v after hv row hrow hfresh hunsent later hlater
    obtain ⟨dub, hdub⟩ := exists_dub_of_isFresh hfresh
    have hstatus := dubStatus_of_baseRows (mem_ordered_iff.mp hrow).1 hdub
    refine ⟨stays_eligible hv hrow (by rw [hdub]; rfl) hunsent hlater, ?_⟩
    have hunseen := (isFresh_iff hdub hstatus).mp hfresh
    rw [isFresh_iff hdub hstatus]
    by_cases hmerges : runMerges env a = true
    · rw [runSeen, if_pos hmerges, unseen_mergedSeen_iff hunseen
        (fun dub hmem => dubStatus_of_observed hnew hmem)]
      intro other hother hid
      obtain ⟨before', u, after', hu, hselects, hdone, row', hrow', hdub'⟩ :=
        (mem_observed_runEnd_iff hnew).mp hother
      have hnever : NeverSplitsMalId env a ledger arr := by
        rcases hcond with hno | hnever
        · rw [hmerges] at hno
          cases hno
        · exact hnever
      rw [hrows before v after hv] at hrow
      refine hunsent ((searched_iff hv).mpr ?_)
      refine hnever before' u after' before v after hu hv hselects hdone row' hrow' row hrow
        hfresh ?_
      rw [hdub, hdub', Option.map_some, Option.map_some, hid]
    · rw [runSeen, if_neg hmerges]
      exact hunseen

end Transitions

/-! ## Two episodes of one dubbed show -/

/-- An aired episode of series 7 that has no file. -/
def missingEpisode (id : Int) : EpisodeCols where
  seriesSourceId := 7
  seasonNumber := 1
  episodeNumber := id
  title := ""
  airDate := some 0
  runtimeMinutes := none
  monitored := true
  episodeFileId := none
  payload := { id := id, seriesId := 7 }
  syncSource := "full"
  syncRunId := 1

/-- An anime series, linked from a dubbed anime, with two missing episodes. -/
def dubbedShow : Catalog where
  warehouse :=
    { Warehouse.empty with
      series := KeyedTable.empty.upsertLive ⟨7, "default"⟩
        { title := "", monitored := true, path := none, genres := [], status := none
          payload := { id := 7, seriesType := some "anime" }, syncSource := "full"
          syncRunId := 1 } id
      episode := (KeyedTable.empty.upsertLive ⟨1, "default"⟩ (missingEpisode 1) id).upsertLive
        ⟨2, "default"⟩ (missingEpisode 2) id }
  mal :=
    ⟨KeyedTable.empty.upsert 10 .dubbed id,
      KeyedTable.empty.upsert ⟨10, "default", .sonarrSeries⟩ 7 id⟩
  lower := .ascii

/-- One Sonarr instance that answers everything. -/
def quietSonarr (c : Catalog) : RunEnv :=
  { quietRadarr c with
    integrations := fun entity => if entity = .episode then ["default"] else []
    namesUnique := by intro entity; cases entity <;> simp }

/-- Only the first episode fits in the budget, and its search records the show
as seen. -/
theorem one_episode_marks_show :
    ¬ ∀ (env : RunEnv) (a : Automation) (runId : ℕ) (ledger : ActionLedger)
      (arr : Visit → ArrLive), a.rule.options.newDubOnly = true →
      KeepsUnsearchedFresh env a runId ledger arr := by
  intro h
  have hkeeps := h (quietSonarr dubbedShow) (watcher 1 (by decide) []) 1 KeyedTable.empty
    (fun _ => ArrLive.empty) rfl [] ⟨.episode, "default"⟩ [] (by decide)
    { sourceId := 2, title := "", seriesSourceId := some 7, seasonNumber := some 1
      episodeNumber := some 2, seriesTitle := some "", hasFile := some false
      dub := some ⟨10, .dubbed⟩ }
    (by decide +kernel) (by decide +kernel) (by decide +kernel) 0 (by decide)
  have hstill := hkeeps.2
  revert hstill
  decide +kernel

theorem split_singleton {α : Type} {x y : α} {before after : List α}
    (h : [x] = before ++ y :: after) : before = [] ∧ y = x := by
  cases before with
  | nil => exact ⟨rfl, (List.cons_eq_cons.mp h).1.symm⟩
  | cons z rest => simp at h

/-- With room for both episodes the show is recorded with both searched. -/
theorem both_episodes_searched :
    KeepsUnsearchedFresh (quietSonarr dubbedShow) (watcher 2 (by decide) []) 1 KeyedTable.empty
      fun _ => ArrLive.empty := by
  refine (keepsUnsearchedFresh_iff _ _ _ _ _ rfl).mpr (Or.inr ?_)
  have hone : runVisits (quietSonarr dubbedShow) (watcher 2 (by decide) []) =
      [⟨.episode, "default"⟩] := by decide
  intro before u after before' v after' hu hv _ _ row _ row' hrow' _ _
  rw [hone] at hu hv
  obtain ⟨rfl, rfl⟩ := split_singleton hu
  obtain ⟨rfl, rfl⟩ := split_singleton hv
  have hitems : itemsToSearch (quietSonarr dubbedShow) (watcher 2 (by decide) []) KeyedTable.empty
      (fun _ => ArrLive.empty) ⟨.episode, "default"⟩ (budgetLeft (quietSonarr dubbedShow)
        (watcher 2 (by decide) []) KeyedTable.empty (fun _ => ArrLive.empty) []) = [1, 2] := by
    decide +kernel
  have hids : (eligibleRows (quietSonarr dubbedShow) (watcher 2 (by decide) []) KeyedTable.empty
      (fun _ => ArrLive.empty) ⟨.episode, "default"⟩).map CandidateRow.sourceId = [1, 2] := by
    decide +kernel
  refine ⟨0, [1, 2], ?_, ?_, fun m hm => absurd hm (Nat.not_lt_zero m), by decide⟩
  · rw [hitems]
    rfl
  · rw [← hids]
    exact List.mem_map_of_mem hrow'

end Nebularr
