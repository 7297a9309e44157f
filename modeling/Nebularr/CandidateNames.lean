import Mathlib.Data.Fintype.EquivFin
import Nebularr.Completeness
import Nebularr.Interleaving
import Nebularr.SearchBudget

/-!
# How often a query names an item

The dub gate is a lateral join so that an item linked from several anime is
still one candidate row.  The file join of the same queries has no such guard:
an item that is joined with two live files is two rows, judged one by one.  So
its id comes back twice, or once from each sense, and a run searches it twice
and pays for it twice.

An episode whose own file id is known is joined by primary key and cannot be
affected.  A movie is while its old file row waits for the tombstone pass of
the run that wrote the new one.
-/

namespace Nebularr

/-! ## Files of an item -/

/-- How many live files are filed under a movie. -/
def Warehouse.liveMovieFiles (w : Warehouse) (key : RowKey) : ℕ :=
  w.movieFile.countWhere fun fileKey file =>
    file.cols.movieSourceId = key.sourceId && fileKey.instanceName = key.instanceName &&
      !file.deleted

/-- How many live files are filed under an episode. -/
def Warehouse.liveEpisodeFiles (w : Warehouse) (key : RowKey) : ℕ :=
  w.episodeFile.countWhere fun fileKey file =>
    fileKey.instanceName = key.instanceName && !file.deleted &&
      file.cols.episodeSourceId = key.sourceId

/-- **The condition**: one live file at most for a live movie, and for an aired
episode of a live series that does not know its own file. -/
structure Warehouse.OneFileEach (w : Warehouse) : Prop where
  movie : ∀ key m, w.movie.row key = some m → m.deleted = false → w.liveMovieFiles key ≤ 1
  episode : ∀ key e, w.episode.row key = some e → e.deleted = false →
    e.cols.airDate.isSome = true → (joinedSeries w key e.cols).isSome = true →
      e.cols.episodeFileId = none → w.liveEpisodeFiles key ≤ 1

/-- A movie is joined to one file at most if it has one live file at most. -/
theorem length_movieFiles_le_one_iff {w : Warehouse} {key : RowKey} :
    (movieFiles w key).length ≤ 1 ↔ w.liveMovieFiles key ≤ 1 := by
  have hcount : (w.movieFile.rows.entries.countP fun file =>
      decide (movieFileOn key file.1 file.2).Holds) = w.liveMovieFiles key := by
    rw [Warehouse.liveMovieFiles, KeyedTable.countWhere_eq_countP]
    refine List.countP_congr fun file _ => ?_
    simp [movieFileOn, and_assoc]
  rw [movieFiles, List.length_map, length_leftJoin, hcount]
  omega

/-- So it is with an episode that names no file. -/
theorem length_episodeFiles_le_one_iff {w : Warehouse} {key : RowKey} {e : EpisodeCols}
    (hfid : e.episodeFileId = none) :
    (episodeFiles w key e).length ≤ 1 ↔ w.liveEpisodeFiles key ≤ 1 := by
  have hcount : (w.episodeFile.rows.entries.countP fun file =>
      decide (episodeFileOn key e file.1 file.2).Holds) = w.liveEpisodeFiles key := by
    rw [Warehouse.liveEpisodeFiles, KeyedTable.countWhere_eq_countP]
    refine List.countP_congr fun file _ => ?_
    simp [episodeFileOn, hfid, and_assoc]
  rw [episodeFiles, List.length_map, length_leftJoin, hcount]
  omega

/-- A known file id is a primary key. -/
theorem length_episodeFiles_of_known {w : Warehouse} {key : RowKey} {e : EpisodeCols} {fid : Int}
    (hfid : e.episodeFileId = some fid) : (episodeFiles w key e).length ≤ 1 := by
  have hone : (w.episodeFile.countWhere fun fileKey file =>
      decide (episodeFileOn key e fileKey file).Holds) ≤ 1 := by
    refine KeyedTable.countWhere_le_one ⟨fid, key.instanceName⟩ fun fileKey file _ hon => ?_
    obtain ⟨fileId, name⟩ := fileKey
    simp only [episodeFileOn, hfid, decide_eq_true_eq, Truth.holds_all, List.mem_cons,
      List.not_mem_nil, or_false, forall_eq_or_imp, forall_eq, Truth.holds_ofBool,
      Truth.holds_or, Truth.holds_and, Truth.holds_onColumn] at hon
    obtain ⟨hname, -, ⟨id, hid, hsame⟩ | ⟨hnone, -⟩⟩ := hon
    · rw [Option.some.inj hid, hsame, hname]
    · cases hnone
  rw [KeyedTable.countWhere_eq_countP] at hone
  rw [episodeFiles, List.length_map, length_leftJoin]
  omega

/-! ## One row for each item -/

/-- The lateral join never multiplies a row. -/
theorem length_gateRows_le_one {options : RuleOptions} {mal : MalTables} {arrEntity : ArrEntity}
    {key : RowKey} : (gateRows options mal arrEntity key).length ≤ 1 := by
  unfold gateRows
  split
  · rw [List.length_map]
    exact Option.length_toList_le
  · exact Nat.le_refl 1

/-- The conditions keep no more rows than were joined. -/
theorem length_whereHolds_le {joins : List JoinedRow} :
    (whereHolds joins).length ≤ joins.length := by
  rw [whereHolds, List.length_map]
  exact List.length_filter_le _ _

/-- The conditions look at each row by itself. -/
theorem whereHolds_flatMap {β : Type} {items : List β} {f : β → List JoinedRow} :
    whereHolds (items.flatMap f) = items.flatMap fun item => whereHolds (f item) := by
  simp [whereHolds, List.filter_flatMap, List.map_flatMap]

/-- Where every condition is true, `where` keeps every row. -/
theorem length_whereHolds_of_all {joins : List JoinedRow}
    (h : ∀ joined ∈ joins, ∀ c ∈ joined.conditions, c.Holds) :
    (whereHolds joins).length = joins.length := by
  rw [whereHolds, List.length_map, List.filter_eq_self.mpr]
  intro joined hjoined
  exact decide_eq_true (Truth.holds_all.mpr (h joined hjoined))

section Items

variable {ρ : Type} {t : KeyedTable RowKey ρ} {f : (Sigma fun _ : RowKey => ρ) → List JoinedRow}

/-- **A query names no item twice** when each row of its table that gives a
result is joined with one row only. -/
theorem nodup_whereHolds (inst : String)
    (h : ∀ e ∈ t.rows.entries, ∀ joined ∈ f e, (∀ c ∈ joined.conditions, c.Holds) →
      e.1 = ⟨joined.row.sourceId, inst⟩ ∧ (f e).length ≤ 1) :
    ((whereHolds (t.rows.entries.flatMap f)).map CandidateRow.sourceId).Nodup := by
  have hkeys : t.rows.entries.Pairwise fun e e' => e.1 ≠ e'.1 :=
    List.pairwise_map.mp t.rows.nodupKeys
  have hpasses : ∀ e ∈ t.rows.entries, ∀ row ∈ whereHolds (f e),
      e.1 = ⟨row.sourceId, inst⟩ ∧ (f e).length ≤ 1 := by
    intro e he row hrow
    obtain ⟨joined, hjoined, hall, rfl⟩ := mem_whereHolds.mp hrow
    exact h e he joined hjoined hall
  rw [whereHolds_flatMap, List.map_flatMap, List.nodup_flatMap]
  constructor
  · intro e he
    cases hrows : whereHolds (f e) with
    | nil => exact List.nodup_nil
    | cons row rest =>
        have hone := (hpasses e he row (by rw [hrows]; exact List.mem_cons_self)).2
        have hlength := length_whereHolds_le.trans hone
        rw [hrows, List.length_cons] at hlength
        obtain rfl : rest = [] := List.eq_nil_of_length_eq_zero (by omega)
        exact List.nodup_singleton row.sourceId
  · refine hkeys.imp_of_mem ?_
    intro e e' he he' hne i hi hi'
    obtain ⟨row, hrow, rfl⟩ := List.mem_map.mp hi
    obtain ⟨row', hrow', hsame⟩ := List.mem_map.mp hi'
    have hkey' := (hpasses e' he' row' hrow').1
    rw [hsame] at hkey'
    exact hne ((hpasses e he row hrow).1.trans hkey'.symm)

/-- Conversely, a row of the table that gives several results is named as often. -/
theorem length_le_one_of_nodup_whereHolds
    (hnodup : ((whereHolds (t.rows.entries.flatMap f)).map CandidateRow.sourceId).Nodup)
    {e : Sigma fun _ : RowKey => ρ} (he : e ∈ t.rows.entries)
    (hname : ∀ joined ∈ f e, joined.row.sourceId = e.1.sourceId)
    (hall : ∀ joined ∈ f e, ∀ c ∈ joined.conditions, c.Holds) : (f e).length ≤ 1 := by
  rw [whereHolds_flatMap, List.map_flatMap, List.nodup_flatMap] at hnodup
  have hsub : (whereHolds (f e)).map CandidateRow.sourceId ⊆ [e.1.sourceId] := by
    intro i hi
    obtain ⟨row, hmem, rfl⟩ := List.mem_map.mp hi
    obtain ⟨joined, hjoined, -, rfl⟩ := mem_whereHolds.mp hmem
    exact List.mem_singleton.mpr (hname joined hjoined)
  have hlength := (List.subperm_of_subset (hnodup.1 e he) hsub).length_le
  rwa [List.length_map, length_whereHolds_of_all hall] at hlength

end Items

/-! ## The three queries -/

section Queries

variable {params : RuleParams} {c : Catalog} {binds : QueryBinds}

/-- With one file each the query names every movie once. -/
theorem nodup_movies (hone : c.warehouse.OneFileEach) (sense : Sense) :
    ((whereHolds (movieJoins params sense c binds)).map CandidateRow.sourceId).Nodup := by
  refine nodup_whereHolds binds.instanceName ?_
  rintro ⟨⟨mid, inst⟩, m⟩ he joined hjoined hall
  obtain ⟨file, -, hjoined⟩ := List.mem_flatMap.mp hjoined
  obtain ⟨dub, -, rfl⟩ := List.mem_map.mp hjoined
  have hlive : m.deleted = false := by
    simpa using hall (.ofBool !m.deleted) (by simp)
  obtain rfl : inst = binds.instanceName := by
    simpa using hall (.ofBool (inst = binds.instanceName)) (by simp)
  have hfiles := length_movieFiles_le_one_iff.mpr
    (hone.movie _ m (KeyedTable.row_eq_some_iff.mpr he) hlive)
  refine ⟨rfl, length_flatMap_le_one hfiles fun file _ => ?_⟩
  rw [List.length_map]
  exact length_gateRows_le_one

/-- With one file each it names every episode once. -/
theorem nodup_episodes (hone : c.warehouse.OneFileEach) :
    ((whereHolds (episodeJoins params c binds)).map CandidateRow.sourceId).Nodup := by
  refine nodup_whereHolds binds.instanceName ?_
  rintro ⟨⟨eid, inst⟩, e⟩ he joined hjoined hall
  obtain ⟨s, hs, hjoined⟩ := List.mem_flatMap.mp hjoined
  obtain ⟨file, -, hjoined⟩ := List.mem_flatMap.mp hjoined
  obtain ⟨dub, -, rfl⟩ := List.mem_map.mp hjoined
  have hlive : e.deleted = false := by
    simpa using hall (.ofBool !e.deleted) (by simp [episodeScopeFragments])
  have haired : e.cols.airDate.isSome = true := by
    simpa using hall (.ofBool e.cols.airDate.isSome) (by simp [episodeScopeFragments])
  obtain rfl : inst = binds.instanceName := by
    simpa using hall (.ofBool (inst = binds.instanceName)) (by simp)
  have hseries := Option.isSome_of_mem (Option.mem_toList.mp hs)
  have hfiles : (episodeFiles c.warehouse ⟨eid, binds.instanceName⟩ e.cols).length ≤ 1 := by
    cases hfid : e.cols.episodeFileId with
    | some fid => exact length_episodeFiles_of_known hfid
    | none =>
        exact (length_episodeFiles_le_one_iff hfid).mpr (hone.episode _ e
          (KeyedTable.row_eq_some_iff.mpr he) hlive haired hseries hfid)
  refine ⟨rfl, length_flatMap_le_one Option.length_toList_le fun s _ => ?_⟩
  refine length_flatMap_le_one hfiles fun file _ => ?_
  rw [List.length_map]
  exact length_gateRows_le_one

/-- The completeness query reads files in subqueries only. -/
theorem nodup_completeSeries :
    ((whereHolds (completeSeriesJoins params c binds)).map CandidateRow.sourceId).Nodup := by
  refine nodup_whereHolds binds.instanceName ?_
  rintro ⟨⟨sid, inst⟩, s⟩ he joined hjoined hall
  obtain ⟨dub, -, rfl⟩ := List.mem_map.mp hjoined
  obtain rfl : inst = binds.instanceName := by
    simpa using hall (.ofBool (inst = binds.instanceName)) (by simp)
  refine ⟨rfl, ?_⟩
  rw [List.length_map]
  exact length_gateRows_le_one

/-- With one file each no item has two rows, before the ledger and the order come in. -/
theorem nodup_baseRows (hone : c.warehouse.OneFileEach) (entity : Entity) (sense : Sense) :
    ((baseRows params entity sense c binds).map CandidateRow.sourceId).Nodup := by
  cases entity with
  | movie => exact nodup_movies hone sense
  | episode =>
      cases sense with
      | nonConforming => exact nodup_episodes hone
      | conforming => exact nodup_completeSeries

/-! ## Senses -/

/-- A failing row fails by its flag, by its file, or by the two together. -/
theorem fails_of_nonConforming {lower : Lowering} {hasFile : Option Bool}
    {file : Option MediaCols}
    (h : (senseCondition lower params .nonConforming hasFile file).Holds) :
    (Truth.ofBool (hasFile.getD false)).not.Holds ∨
      (Truth.all (requireFragments lower params.require file)).not.Holds ∨
      (conformingRow lower params.require hasFile file).not.Holds := by
  cases hmissing : params.wantsMissing <;> cases hupgrade : params.wantsUpgrade <;>
    simp only [senseCondition, hmissing, hupgrade, Bool.false_eq_true, if_true, if_false,
      List.nil_append, List.append_nil, List.cons_append, List.cons_ne_nil, Truth.holds_any,
      List.mem_cons, List.not_mem_nil, or_false, exists_eq_or_imp, exists_eq_left,
      Truth.holds_and] at h
  · exact Or.inr (Or.inr h)
  · exact Or.inr (Or.inl h.2)
  · exact Or.inl h
  · exact h.imp_right fun hfile => Or.inl hfile.2

/-- **One joined row is not in both senses.** -/
theorem senseCondition_exclusive {lower : Lowering} {params' : RuleParams}
    (hreq : params'.require = params.require) {hasFile : Option Bool} {file : Option MediaCols}
    (hconforming : (senseCondition lower params .conforming hasFile file).Holds) :
    ¬ (senseCondition lower params' .nonConforming hasFile file).Holds := by
  have hrow : (conformingRow lower params'.require hasFile file).Holds := by rwa [hreq]
  have hnot : ∀ {t : Truth}, t.Holds → ¬ t.not.Holds := by
    rintro _ rfl
    decide
  intro hfailing
  rcases fails_of_nonConforming hfailing with hflag | hfile | hboth
  · exact hnot (Truth.holds_all.mp hrow _ List.mem_cons_self) hflag
  · refine hnot (Truth.holds_all.mpr fun f hf => ?_) hfile
    exact Truth.holds_all.mp hrow f (List.mem_cons_of_mem _ (List.mem_cons_of_mem _ hf))
  · exact hnot hrow hboth

/-- **With one file each, no movie is in both senses.** -/
theorem ne_of_senses (hone : c.warehouse.OneFileEach) {params' : RuleParams}
    (hreq : params'.require = params.require) {row row' : CandidateRow}
    (h : row ∈ whereHolds (movieJoins params .conforming c binds))
    (h' : row' ∈ whereHolds (movieJoins params' .nonConforming c binds)) :
    row.sourceId ≠ row'.sourceId := by
  intro hsame
  obtain ⟨mid, m, file, dub, hm, hlive, -, hfile, -, hconforming, rfl⟩ := mem_movieRows_iff.mp h
  obtain ⟨mid', m', file', dub', hm', -, -, hfile', -, hfailing, rfl⟩ := mem_movieRows_iff.mp h'
  obtain rfl : mid = mid' := hsame
  obtain rfl := Option.some.inj (hm.symm.trans hm')
  have hfiles := length_movieFiles_le_one_iff.mpr (hone.movie _ m hm hlive)
  obtain rfl : file = file' := by
    rcases Nat.le_one_iff_eq_zero_or_eq_one.mp hfiles with hzero | hsingle
    · rw [List.eq_nil_of_length_eq_zero hzero] at hfile
      cases hfile
    · obtain ⟨only, honly⟩ := List.length_eq_one_iff.mp hsingle
      rw [honly, List.mem_singleton] at hfile hfile'
      rw [hfile, hfile']
  exact senseCondition_exclusive hreq hconforming hfailing

end Queries

/-! ## Ordered and limited -/

section Names

variable {c : Catalog} {ledger : ActionLedger} {binds : QueryBinds}

/-- Ordering keeps the eligible rows. -/
theorem CompiledQuery.ordered_perm {q : CompiledQuery} :
    q.ordered.Perm (q.eligible.map LedgeredRow.row) :=
  (List.perm_insertionSort candidateOrder q.eligible).map LedgeredRow.row

/-- The cooldown only takes rows away. -/
theorem eligible_sublist {params : RuleParams} {entity : Entity} {sense : Sense} :
    ((compileCandidates params entity sense c ledger binds).eligible.map LedgeredRow.row).Sublist
      (baseRows params entity sense c binds) := by
  have hall : (compileCandidates params entity sense c ledger binds).all.map LedgeredRow.row =
      baseRows params entity sense c binds := by
    simp [compileCandidates, Function.comp_def]
  rw [← hall]
  refine List.Sublist.map _ ?_
  simp only [compileCandidates]
  split
  · exact List.filter_sublist
  · exact List.Sublist.refl _

/-- Without a search action it takes none. -/
theorem ordered_perm_baseRows {params : RuleParams} (h : params.hasSearch = false)
    {entity : Entity} {sense : Sense} :
    (compileCandidates params entity sense c ledger binds).ordered.Perm
      (baseRows params entity sense c binds) := by
  refine CompiledQuery.ordered_perm.trans ?_
  simp [compileCandidates, h, Function.comp_def]

/-- With one file each the ordered query names every item once. -/
theorem nodup_ordered (hone : c.warehouse.OneFileEach) {params : RuleParams} {entity : Entity}
    {sense : Sense} :
    ((compileCandidates params entity sense c ledger binds).ordered.map
      CandidateRow.sourceId).Nodup := by
  have hbase : ((baseRows params entity sense c binds).map CandidateRow.sourceId).Nodup :=
    nodup_baseRows hone entity sense
  refine List.Nodup.perm ?_ (CompiledQuery.ordered_perm.map CandidateRow.sourceId).symm
  exact hbase.sublist (eligible_sublist.map CandidateRow.sourceId)

end Names

/-! ## What a run posts and pays for -/

section Runs

variable (env : RunEnv) (a : Automation) (runId : ℕ)

/-- The items in the commands that reached an instance. -/
def postedItems (p : RunProgress) : List ItemKey :=
  p.sent.flatMap fun command => command.items.map command.visit.item

/-- What the visits of a run come to, each read at the progress it found. -/
def overVisits (items : Visit → RunProgress → List Int) : List Visit → RunProgress → List ItemKey
  | [], _ => []
  | v :: rest, p =>
      (items v p).map v.item ++ overVisits items rest (runInstance env a runId v p)

/-- The items the budget of a run is charged for. -/
def chargedItems : List Visit → RunProgress → List ItemKey :=
  overVisits env a runId (visitRecorded env a)

variable {env a runId}

/-- The budget falls by the items charged. -/
theorem remaining_runThrough (visits : List Visit) (p : RunProgress) :
    (runThrough env a runId visits p).remaining =
      p.remaining - (chargedItems env a runId visits p).length := by
  induction visits generalizing p with
  | nil => rfl
  | cons v rest ih =>
      have hcharged : chargedItems env a runId (v :: rest) p =
          (visitRecorded env a v p).map v.item ++
            chargedItems env a runId rest (runInstance env a runId v p) := rfl
      rw [runThrough_cons, ih, (runInstance_spec env a runId v p).2.2.1, hcharged,
        List.length_append, List.length_map]
      omega

/-- What has been sent is what was sent before, and what each visit sends. -/
theorem postedItems_runThrough (visits : List Visit) (p : RunProgress) :
    postedItems (runThrough env a runId visits p) =
      postedItems p ++
        overVisits env a runId (fun v p => (visitSent env a v p).flatten) visits p := by
  induction visits generalizing p with
  | nil => exact (List.append_nil _).symm
  | cons v rest ih =>
      have hvisit : postedItems (runInstance env a runId v p) =
          postedItems p ++ (visitSent env a v p).flatten.map v.item := by
        rw [postedItems, (runInstance_spec env a runId v p).1, List.flatMap_append,
          List.flatMap_map, visitSent, List.map_flatten, List.map_map]
        rfl
      rw [runThrough_cons, ih, hvisit, List.append_assoc]
      rfl

/-- An item of a run is one of a visit. -/
theorem mem_overVisits {items : Visit → RunProgress → List Int} {key : ItemKey}
    {visits : List Visit} {p : RunProgress} (h : key ∈ overVisits env a runId items visits p) :
    ∃ v ∈ visits, ∃ i, key = v.item i := by
  induction visits generalizing p with
  | nil => cases h
  | cons v rest ih =>
      rcases List.mem_append.mp h with hhere | hlater
      · obtain ⟨i, -, rfl⟩ := List.mem_map.mp hhere
        exact ⟨v, List.mem_cons_self, i, rfl⟩
      · obtain ⟨u, hu, hkey⟩ := ih hlater
        exact ⟨u, List.mem_cons_of_mem v hu, hkey⟩

/-- **Visits do not share items**: distinct visits that each name an item once
name it once together. -/
theorem nodup_overVisits {items : Visit → RunProgress → List Int} {visits : List Visit}
    (hvisits : visits.Nodup) (hitems : ∀ v ∈ visits, ∀ p, (items v p).Nodup) (p : RunProgress) :
    (overVisits env a runId items visits p).Nodup := by
  induction visits generalizing p with
  | nil => exact List.nodup_nil
  | cons v rest ih =>
      obtain ⟨hnew, hrest⟩ := List.nodup_cons.mp hvisits
      have hhere : ((items v p).map v.item).Nodup :=
        (hitems v List.mem_cons_self p).map fun i i' h => (Visit.item_inj h).2
      refine List.Nodup.append hhere
        (ih hrest (fun u hu => hitems u (List.mem_cons_of_mem v hu)) _) ?_
      intro key hkey hlater
      obtain ⟨i, -, rfl⟩ := List.mem_map.mp hkey
      obtain ⟨u, hu, i', hsame⟩ := mem_overVisits hlater
      rw [(Visit.item_inj hsame).1] at hnew
      exact hnew hu

/-- A visit that reads a warehouse with one file each searches no item twice. -/
theorem nodup_visitItems {v : Visit} (hone : (env.catalog v).warehouse.OneFileEach)
    (p : RunProgress) : (visitItems env a v p).Nodup := by
  have hquery : ((visitQuery env a v p).ordered.map CandidateRow.sourceId).Nodup :=
    nodup_ordered hone
  have hpruned : (pruned a (selectedRows env a v p)).Sublist (selectedRows env a v p) := by
    unfold pruned
    split
    · exact List.filter_sublist
    · exact List.Sublist.refl _
  exact hquery.sublist ((hpruned.trans (List.take_sublist _ _)).map CandidateRow.sourceId)

/-- A visit whose items are distinct sends each once. -/
theorem nodup_flatten_visitSent {v : Visit} {p : RunProgress}
    (h : (visitItems env a v p).Nodup) : (visitSent env a v p).flatten.Nodup := by
  have hflat := (visitSent_first env a v p).flatten
  rw [flatten_slices] at hflat
  exact h.sublist hflat.sublist

/-- A visit whose items are distinct charges each once. -/
theorem nodup_visitRecorded {v : Visit} {p : RunProgress} (h : (visitItems env a v p).Nodup) :
    (visitRecorded env a v p).Nodup := by
  unfold visitRecorded
  split
  · exact h
  · exact List.nodup_nil

end Runs

/-- **A run names each item once**, in its commands and on its bill. -/
structure SearchesOnce (env : RunEnv) (a : Automation) (runId : ℕ) (ledger : ActionLedger)
    (arr : Visit → ArrLive) : Prop where
  posted : (postedItems (runEnd env a runId ledger arr)).Nodup
  charged : (chargedItems env a runId (runVisits env a) (runStart env a ledger arr)).Nodup
  paid : (runEnd env a runId ledger arr).remaining = (runStart env a ledger arr).remaining -
    (chargedItems env a runId (runVisits env a) (runStart env a ledger arr)).length

/-- With one file each a run sends every item once and charges it once. -/
theorem searchesOnce_of_oneFileEach {env : RunEnv} {a : Automation} {runId : ℕ}
    {ledger : ActionLedger} {arr : Visit → ArrLive}
    (hone : ∀ v ∈ runVisits env a, (env.catalog v).warehouse.OneFileEach) :
    SearchesOnce env a runId ledger arr where
  posted := by
    rw [runEnd, postedItems_runThrough]
    exact nodup_overVisits (nodup_runVisits env a)
      (fun v hv p => nodup_flatten_visitSent (nodup_visitItems (hone v hv) p)) _
  charged := nodup_overVisits (nodup_runVisits env a)
    (fun v hv p => nodup_visitRecorded (nodup_visitItems (hone v hv) p)) _
  paid := remaining_runThrough _ _

/-! ## What a rule names -/

/-- The parameters a rule's queries are compiled from: its own, and for its tag
and monitor actions those without its searches. -/
def AcceptedRule.compiled (rule : AcceptedRule) : List RuleParams :=
  [rule.toRuleParams, rule.toRuleParams.withoutSearch]

/-- **Candidates name each item once**: no query of a rule returns an id twice,
no movie is returned in both senses, and a run posts and pays for distinct
items. -/
structure NamesOnce (c : Catalog) : Prop where
  queries : ∀ rule : AcceptedRule, ∀ params ∈ rule.compiled, ∀ entity sense ledger binds,
    ((compileCandidates params entity sense c ledger binds).ordered.map
      CandidateRow.sourceId).Nodup
  senses : ∀ rule : AcceptedRule, ∀ params ∈ rule.compiled, ∀ params' ∈ rule.compiled,
    ∀ ledger binds,
    ∀ row ∈ (compileCandidates params .movie .conforming c ledger binds).ordered,
    ∀ row' ∈ (compileCandidates params' .movie .nonConforming c ledger binds).ordered,
      row.sourceId ≠ row'.sourceId
  searches : ∀ env a runId ledger arr, (∀ v ∈ runVisits env a, env.catalog v = c) →
    SearchesOnce env a runId ledger arr

/-- With one file each the query names every item once, whatever the rule. -/
theorem namesOnce_of_oneFileEach {c : Catalog} (hone : c.warehouse.OneFileEach) :
    NamesOnce c where
  queries _ _ _ _ _ _ _ := nodup_ordered hone
  senses rule params hparams params' hparams' ledger binds row hrow row' hrow' := by
    have hrequire : ∀ params ∈ rule.compiled, params.require = rule.require := by
      intro params hparams
      rcases List.mem_pair.mp hparams with rfl | rfl <;> rfl
    refine ne_of_senses hone ?_ (mem_ordered_iff.mp hrow).1 (mem_ordered_iff.mp hrow').1
    rw [hrequire params hparams, hrequire params' hparams']
  searches env a _ _ _ hreads :=
    searchesOnce_of_oneFileEach fun v hv => by rwa [hreads v hv]

/-- A rule that tags what is not of the one quality. -/
def otherQuality (name : String) : AcceptedRule where
  scope := { monitoredOnly := false }
  require := { qualityAny := [name] }
  actions := [.tag "other-quality" .nonConforming]
  actsSomehow := by simp
  upgradeNamesTarget := by simp [RuleParams.wantsUpgrade]
  newDubIsGated := defaultOptions_gated
  statusOfSeries := defaultScope_status
  tagsAreLabelled := by simp

/-- It selects every item whose files are of other qualities. -/
theorem holds_otherQuality (lower : Lowering) {name : String} (hasFile : Option Bool)
    {file : Option MediaCols}
    (h : (file.bind MediaCols.quality).getD "" ≠ name) :
    (senseCondition lower (otherQuality name).toRuleParams .nonConforming hasFile file).Holds := by
  refine (holds_senseCondition_withoutSearch (otherQuality name).toRuleParams).mpr fun hrow => ?_
  have hquality := Truth.holds_all.mp hrow
    (.ofBool ((file.bind MediaCols.quality).getD "" ∈ [name]))
    (by simp [requireFragments, otherQuality])
  simp [h] at hquality

/-- Some quality is not among those of finitely many files. -/
theorem exists_otherQuality (files : List (Option MediaCols)) :
    ∃ name, ∀ file ∈ files, (file.bind MediaCols.quality).getD "" ≠ name := by
  obtain ⟨name, hname⟩ := Infinite.exists_notMem_finset
    (files.map fun file => (file.bind MediaCols.quality).getD "").toFinset
  refine ⟨name, fun file hfile heq => hname ?_⟩
  rw [List.mem_toFinset, List.mem_map]
  exact ⟨file, hfile, heq⟩

/-- A rule without a search returns each row that its `where` keeps. -/
theorem NamesOnce.baseRows {c : Catalog} (h : NamesOnce c) (name : String) (entity : Entity)
    (binds : QueryBinds) :
    ((baseRows (otherQuality name).toRuleParams entity .nonConforming c binds).map
      CandidateRow.sourceId).Nodup := by
  have hnodup := h.queries (otherQuality name) _ List.mem_cons_self entity .nonConforming
    KeyedTable.empty binds
  exact hnodup.perm ((ordered_perm_baseRows rfl).map CandidateRow.sourceId)

/-- A query that names every item once, whatever the rule, needs one file each.
-/
theorem oneFileEach_of_namesOnce {c : Catalog} (h : NamesOnce c) : c.warehouse.OneFileEach := by
  constructor
  · rintro ⟨mid, inst⟩ m hm hlive
    obtain ⟨name, hname⟩ := exists_otherQuality (movieFiles c.warehouse ⟨mid, inst⟩)
    have hlength := length_le_one_of_nodup_whereHolds
      (h.baseRows name .movie ⟨inst, 0, 0, []⟩) (KeyedTable.row_eq_some_iff.mp hm) ?_ ?_
    · have hfiles : (movieFiles c.warehouse ⟨mid, inst⟩).length ≤ 1 := by
        simpa [gateRows, otherQuality] using hlength
      exact length_movieFiles_le_one_iff.mp hfiles
    · intro joined hjoined
      obtain ⟨file, -, hjoined⟩ := List.mem_flatMap.mp hjoined
      obtain ⟨dub, -, rfl⟩ := List.mem_map.mp hjoined
      rfl
    · intro joined hjoined
      obtain ⟨file, hfile, hjoined⟩ := List.mem_flatMap.mp hjoined
      obtain ⟨dub, -, rfl⟩ := List.mem_map.mp hjoined
      have hsense := holds_otherQuality c.lower m.cols.payload.hasFile (hname file hfile)
      simpa [movieScopeFragments, otherQuality, hlive] using hsense
  · rintro ⟨eid, inst⟩ e he hlive haired hseries hfid
    obtain ⟨aired, haired⟩ := Option.isSome_iff_exists.mp haired
    obtain ⟨s, hs⟩ := Option.isSome_iff_exists.mp hseries
    obtain ⟨name, hname⟩ := exists_otherQuality (episodeFiles c.warehouse ⟨eid, inst⟩ e.cols)
    have hlength := length_le_one_of_nodup_whereHolds
      (h.baseRows name .episode ⟨inst, aired, 0, []⟩) (KeyedTable.row_eq_some_iff.mp he) ?_ ?_
    · have hfiles : (episodeFiles c.warehouse ⟨eid, inst⟩ e.cols).length ≤ 1 := by
        simpa [gateRows, otherQuality, hs] using hlength
      exact (length_episodeFiles_le_one_iff hfid).mp hfiles
    · intro joined hjoined
      obtain ⟨_, -, hjoined⟩ := List.mem_flatMap.mp hjoined
      obtain ⟨file, -, hjoined⟩ := List.mem_flatMap.mp hjoined
      obtain ⟨dub, -, rfl⟩ := List.mem_map.mp hjoined
      rfl
    · intro joined hjoined
      obtain ⟨_, -, hjoined⟩ := List.mem_flatMap.mp hjoined
      obtain ⟨file, hfile, hjoined⟩ := List.mem_flatMap.mp hjoined
      obtain ⟨dub, -, rfl⟩ := List.mem_map.mp hjoined
      have hsense := holds_otherQuality c.lower e.cols.payload.hasFile (hname file hfile)
      simpa [episodeScopeFragments, seriesScopeFragments, otherQuality, truthyText, hlive, haired]
        using hsense

/-- **Candidates name each item once exactly where items have one live file.**
A run whose visits each read some such warehouse posts and pays for distinct
items as well. -/
theorem namesOnce_iff (c : Catalog) (env : RunEnv) (a : Automation) (runId : ℕ)
    (ledger : ActionLedger) (arr : Visit → ArrLive) :
    (NamesOnce c ↔ c.warehouse.OneFileEach) ∧
      ((∀ v ∈ runVisits env a, (env.catalog v).warehouse.OneFileEach) →
        SearchesOnce env a runId ledger arr) := by
  constructor
  · exact ⟨oneFileEach_of_namesOnce, namesOnce_of_oneFileEach⟩
  · intro hone
    exact searchesOnce_of_oneFileEach hone

/-! ### Two movies to upgrade -/

/-- A rule that looks for better files. -/
def upgradeHunter : AcceptedRule where
  require := { resolutionMin := some 2160 }
  actions := [.searchUpgrade]
  actsSomehow := by decide
  upgradeNamesTarget := by decide
  newDubIsGated := defaultOptions_gated
  statusOfSeries := defaultScope_status
  tagsAreLabelled := by simp

/-- It is live, with a budget of eleven. -/
def upgraderOfEleven : Automation := { hunterOfEleven with rule := upgradeHunter }

/-- Two movies with their files. -/
def upgradableMovies : List MoviePayload :=
  [1, 2].map fun id =>
    { id := id, monitored := some true, hasFile := some true,
      movieFile := some { id := some (20 + id), quality := { resolution := some 1080 } } }

/-- Radarr has them. -/
def twoUpgradable : RadarrLibrary where
  movies := upgradableMovies
  movie_nodup := by decide
  movie_id_ne_zero := by decide
  file_once := by
    have hfiles : ∀ m ∈ upgradableMovies, m.carriedFile.map Prod.fst = some (20 + m.id) := by decide
    intro m hm m' hm' fid file file' hfile hfile'
    have hid := hfiles m hm
    have hid' := hfiles m' hm'
    rw [hfile, Option.map_some, Option.some.injEq] at hid
    rw [hfile', Option.map_some, Option.some.injEq] at hid'
    omega

/-- What a full run makes of it. -/
def upgradableCatalog : Catalog where
  warehouse :=
    (syncRadarrFull twoUpgradable.client (fun _ => false) "default"
      ⟨1, "full", String.toLower⟩ Warehouse.empty).wh
  mal := ⟨KeyedTable.empty, KeyedTable.empty⟩
  lower := .ascii

/-- The two movies have one file each. -/
theorem oneFileEach_upgradable : upgradableCatalog.warehouse.OneFileEach := by
  constructor
  · intro key m hm _
    have hall : ∀ e ∈ upgradableCatalog.warehouse.movie.rows.entries,
        upgradableCatalog.warehouse.liveMovieFiles e.1 ≤ 1 := by decide +kernel
    exact hall ⟨key, m⟩ (KeyedTable.row_eq_some_iff.mp hm)
  · intro _ _ _ _ _ _ _
    exact Nat.zero_le 1

/-- A run that searches both posts each once. -/
theorem namesOnce_two_upgrades :
    NamesOnce upgradableCatalog ∧
      postedItems (runEnd (quietRadarr upgradableCatalog) upgraderOfEleven 1 KeyedTable.empty
        fun _ => .empty) = [⟨"default", .movie, 1⟩, ⟨"default", .movie, 2⟩] ∧
      SearchesOnce (quietRadarr upgradableCatalog) upgraderOfEleven 1 KeyedTable.empty
        fun _ => .empty := by
  obtain ⟨hnames, hsearches⟩ := namesOnce_iff upgradableCatalog (quietRadarr upgradableCatalog)
    upgraderOfEleven 1 KeyedTable.empty fun _ => .empty
  exact ⟨hnames.mpr oneFileEach_upgradable, by decide +kernel,
    hsearches fun _ _ => oneFileEach_upgradable⟩

/-! ### A movie that is imported again

Its second file is written by the chunk, its first one flagged at the end of
the run. -/

/-- Radarr with one movie and its file. -/
def radarrWith (fid : Int) : RadarrLibrary where
  movies := [{ id := 1, monitored := some true, hasFile := some true,
               movieFile := some { id := some fid, quality := { resolution := some 1080 } } }]
  movie_nodup := by simp
  movie_id_ne_zero := by simp
  file_once := by simp

/-- One full run, and the next up to its tombstone pass. -/
def reimported : List Action :=
  [.arrChanges emptiedLibrary (radarrWith 21), .start 0 ⟨1, "full", String.toLower⟩ .radarrFull,
    .advance 0, .advance 0, .arrChanges emptiedLibrary (radarrWith 22),
    .start 1 ⟨2, "full", String.toLower⟩ .radarrFull, .advance 1]

/-- The rule finds the movie twice. -/
theorem not_namesOnce_reimported :
    ¬ ∀ (inst : String) (sonarr : SonarrLibrary) (radarr : RadarrLibrary) (w : World),
      Reachable (World.step inst) (.idle Warehouse.empty sonarr radarr) w →
        ∀ mal lower, NamesOnce ⟨w.wh, mal, lower⟩ := by
  intro h
  have htwice : (replay (World.step "default") reimported
      (.idle Warehouse.empty emptiedLibrary emptyRadarr)).map (fun w =>
        (compileCandidates upgradeHunter.toRuleParams .movie .nonConforming
          ⟨w.wh, ⟨KeyedTable.empty, KeyedTable.empty⟩, .ascii⟩ KeyedTable.empty
          ⟨"default", 0, 7, []⟩).ordered.map CandidateRow.sourceId) = some [1, 1] := by
    decide +kernel
  obtain ⟨w, hw, hids⟩ := Option.map_eq_some_iff.mp htwice
  have hnames := h "default" emptiedLibrary emptyRadarr w (reachable_of_replay hw)
    ⟨KeyedTable.empty, KeyedTable.empty⟩ .ascii
  have hnodup := hnames.queries upgradeHunter _ List.mem_cons_self .movie .nonConforming
    KeyedTable.empty ⟨"default", 0, 7, []⟩
  rw [hids] at hnodup
  revert hnodup
  decide

end Nebularr
