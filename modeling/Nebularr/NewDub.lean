import Mathlib.Data.Finset.Card
import Nebularr.SearchBudget

/-!
# Rules that wait for a new dub

With `new_dub_only` a rule searches an item once its anime has got a dub that
the rule has not seen before.  What it has seen is kept by `mal_id`, while
rows are cut by the budget and lost by item: the limit stands in the query,
the pruning of the rows already seen comes after it, and all rows of a visit
that goes through are recorded as seen.
-/

namespace Nebularr

/-! ## What a run searched on an instance -/

section Run

variable {env : RunEnv} {a : Automation} {runId : ℕ} {v : Visit} {p : RunProgress}

/-- The items of the commands a run sent to one instance. -/
def sentTo (v : Visit) (p : RunProgress) : List Int :=
  (p.sent.filter fun command => command.visit = v).flatMap SentCommand.items

theorem sentTo_runInstance {u : Visit} :
    sentTo v (runInstance env a runId u p) =
      sentTo v p ++ if u = v then (visitSent env a u p).flatten else [] := by
  rw [sentTo, (runInstance_spec env a runId u p).1, List.filter_append, List.flatMap_append]
  congr 1
  by_cases h : u = v
  · rw [if_pos h]
    simp [h, List.filter_map, Function.comp_def, AcceptedChunk.command, visitSent,
      List.flatMap_def]
  · simp [h, List.filter_map, Function.comp_def, AcceptedChunk.command]

theorem sentTo_runThrough_of_not_mem {visits : List Visit} :
    ∀ {p : RunProgress}, v ∉ visits → sentTo v (runThrough env a runId visits p) = sentTo v p := by
  induction visits with
  | nil => exact fun {_} _ => rfl
  | cons u rest ih =>
      intro p h
      have hne : ¬ u = v := fun heq => h (heq ▸ List.mem_cons_self)
      have hrest : v ∉ rest := fun hmem => h (List.mem_cons_of_mem u hmem)
      rw [runThrough_cons, ih hrest, sentTo_runInstance, if_neg hne, List.append_nil]

/-- What a run searched on an instance is what its one visit there sent. -/
theorem sentTo_runEnd {ledger : ActionLedger} {arr : Visit → ArrLive} {before after : List Visit}
    (hsplit : runVisits env a = before ++ v :: after) :
    sentTo v (runEnd env a runId ledger arr) =
      (visitSent env a v
        (runThrough env a runId before (runStart env a ledger arr))).flatten := by
  have hnodup := nodup_runVisits env a
  rw [hsplit] at hnodup
  have hparts := List.nodup_append.mp hnodup
  have hbefore : v ∉ before := fun h => hparts.2.2 v h v List.mem_cons_self rfl
  have hafter : v ∉ after := (List.nodup_cons.mp hparts.2.1).1
  have hstart : sentTo v (runStart env a ledger arr) = [] := rfl
  rw [runEnd, hsplit, runThrough_append, runThrough_cons, sentTo_runThrough_of_not_mem hafter,
    sentTo_runInstance, if_pos rfl, sentTo_runThrough_of_not_mem hbefore, hstart, List.nil_append]

end Run

/-! ## The limit and the pruning -/

/-- **Cutting before filtering.**  Of a list cut to its first `b` entries and
then filtered, as many different names are left as `b` and the whole list
allow exactly when nothing that counts is cut off, or nothing else is kept. -/
theorem card_filter_take_iff {ρ : Type} (rows : List ρ) (b : ℕ) (counts : ρ → Bool)
    (name : ρ → Int) :
    (((rows.take b).filter counts).map name).toFinset.card =
        min b ((rows.filter counts).map name).toFinset.card ↔
      (rows.filter counts).map name ⊆ ((rows.take b).filter counts).map name ∨
        ((rows.take b).length = b ∧ (∀ row ∈ rows.take b, counts row = true) ∧
          ((rows.take b).map name).Nodup) := by
  set kept := ((rows.take b).filter counts).map name with hkept
  set all := (rows.filter counts).map name with hall
  have hsub : kept.toFinset ⊆ all.toFinset := by
    intro x hx
    obtain ⟨row, hrow, rfl⟩ := List.mem_map.mp (List.mem_toFinset.mp hx)
    obtain ⟨hmem, hcounts⟩ := List.mem_filter.mp hrow
    exact List.mem_toFinset.mpr
      (List.mem_map.mpr ⟨row, List.mem_filter.mpr ⟨List.mem_of_mem_take hmem, hcounts⟩, rfl⟩)
  have hcard := Finset.card_le_card hsub
  have hlength : kept.toFinset.card ≤ kept.length := List.toFinset_card_le kept
  have hfilter : kept.length ≤ (rows.take b).length := by
    rw [hkept, List.length_map]
    exact List.length_filter_le _ _
  have htake : (rows.take b).length ≤ b := List.length_take_le b rows
  constructor
  · intro heq
    by_cases hfew : all.toFinset.card ≤ b
    · left
      rw [Nat.min_eq_right hfew] at heq
      have hsame := Finset.eq_of_subset_of_card_le hsub heq.ge
      intro x hx
      exact List.mem_toFinset.mp (hsame ▸ List.mem_toFinset.mpr hx)
    · right
      rw [Nat.min_eq_left (by omega)] at heq
      have hwhole : (rows.take b).filter counts = rows.take b := by
        refine List.filter_sublist.eq_of_length ?_
        have hmap : kept.length = ((rows.take b).filter counts).length := List.length_map name
        omega
      refine ⟨by omega, List.filter_eq_self.mp hwhole, ?_⟩
      have hdistinct : kept.Nodup := by
        rw [← Multiset.coe_nodup, ← Multiset.toFinset_card_eq_card_iff_nodup]
        show kept.toFinset.card = kept.length
        omega
      rwa [hkept, hwhole] at hdistinct
  · rintro (hsubset | ⟨hfull, hcounts, hdistinct⟩)
    · have hback : all.toFinset ⊆ kept.toFinset := by
        intro x hx
        exact List.mem_toFinset.mpr (hsubset (List.mem_toFinset.mp hx))
      have hback := Finset.card_le_card hback
      omega
    · have hwhole : kept = (rows.take b).map name := by
        rw [hkept, List.filter_eq_self.mpr hcounts]
      have hexact : kept.toFinset.card = b := by
        rw [hwhole, List.toFinset_card_of_nodup hdistinct, List.length_map, hfull]
      omega

/-- The items of the rows that are fresh for an automation. -/
def freshItems (a : Automation) (rows : List CandidateRow) : List Int :=
  (rows.filter (isFresh a.dubStatusSeen)).map CandidateRow.sourceId

/-- **No starvation by seen items, exactly.**  A visit whose calls succeed
searches as many different fresh items as its budget and the eligible rows
allow exactly when there are none, or when the limit cuts off no fresh item, or
when the rows within the limit are all fresh and of different items. -/
theorem searches_fresh_iff (env : RunEnv) (a : Automation) (runId : ℕ) (ledger : ActionLedger)
    (arr : Visit → ArrLive) (before after : List Visit) (v : Visit)
    (hvisit : runVisits env a = before ++ v :: after)
    (hnew : a.rule.options.newDubOnly = true) (hselect : env.fault (.select v) = none)
    (hanswered : ∀ n, (env.command v n).error = none) :
    let p := runThrough env a runId before (runStart env a ledger arr)
    let eligible := (visitQuery env a v p).ordered
    let within := eligible.take p.remaining
    0 < p.remaining →
    ((sentTo v (runEnd env a runId ledger arr)).toFinset.card =
        min p.remaining (freshItems a eligible).toFinset.card ↔
      freshItems a eligible = [] ∨
        (a.dryRun = false ∧ a.rule.hasSearch = true ∧
          (freshItems a eligible ⊆ freshItems a within ∨
            (within.length = p.remaining ∧ (∀ row ∈ within, isFresh a.dubStatusSeen row = true) ∧
              (within.map CandidateRow.sourceId).Nodup)))) := by
  intro p eligible within hbudget
  rw [sentTo_runEnd hvisit]
  by_cases hsearches : a.dryRun = false ∧ a.rule.hasSearch = true
  · obtain ⟨hlive, hsearch⟩ := hsearches
    have hitems : visitItems env a v p = freshItems a within := by
      rw [visitItems, selectedRows, pruned, if_pos hnew, if_pos hsearch]
      rfl
    have hsent : (visitSent env a v p).flatten = freshItems a within := by
      rw [visitSent, visitCommands, if_pos ⟨⟨hselect, hlive⟩, hsearch⟩,
        searchItems_complete (searchItems_answered hanswered), flatten_slices, hitems]
    have hcount := card_filter_take_iff eligible p.remaining (isFresh a.dubStatusSeen)
      CandidateRow.sourceId
    show (visitSent env a v p).flatten.toFinset.card = _ ↔ _
    rw [hsent]
    refine hcount.trans ?_
    constructor
    · intro h
      exact Or.inr ⟨hlive, hsearch, h⟩
    · rintro (hnone | ⟨-, -, h⟩)
      · left
        have hempty : (eligible.filter (isFresh a.dubStatusSeen)).map CandidateRow.sourceId = [] :=
          hnone
        rw [hempty]
        exact List.nil_subset _
      · exact h
  · have hsent : visitSent env a v p = [] := by
      rw [visitSent, visitCommands, if_neg fun h => hsearches ⟨h.1.2, h.2⟩, List.map_nil]
    show (visitSent env a v p).flatten.toFinset.card = _ ↔ _
    rw [hsent]
    constructor
    · intro h
      left
      have hzero : (freshItems a eligible).toFinset.card = 0 := by
        have hleft : (([] : List (List Int)).flatten).toFinset.card = 0 := rfl
        omega
      rwa [Finset.card_eq_zero, List.toFinset_eq_empty_iff] at hzero
    · rintro (hnone | ⟨hlive, hsearch, -⟩)
      · simp [hnone]
      · exact absurd ⟨hlive, hsearch⟩ hsearches

/-- A live new-dub watcher that has seen some dubs already. -/
def watcher (budget : ℕ) (budgetBounds : 1 ≤ budget ∧ budget ≤ 100) (seen : List Int) :
    Automation where
  id := 1
  rule := newDubWatcher
  dryRun := false
  budgetPerRun := budget
  cooldownDays := 7
  dubStatusSeen := fun malId => if malId ∈ seen then some .dubbed else none
  budgetBounds := budgetBounds
  cooldownBounds := defaultCooldown_bounds

/-- Missing movies, each linked from a dubbed anime of its own: movie `id` is
of anime `10 * id`. -/
def dubbedMovies (ids : List Int) : Catalog :=
  { missingMovies "default" ids with
    mal :=
      ⟨ids.foldl (fun t id => t.upsert (10 * id) .dubbed fun status => status) KeyedTable.empty,
        ids.foldl (fun t id => t.upsert ⟨10 * id, "default", .radarrMovie⟩ id fun sid => sid)
          KeyedTable.empty⟩ }

/-- The movie of a seen dub takes the only place, and the new dub of the other
one is not searched. -/
theorem seen_movie_starves_fresh :
    ¬ ∀ (env : RunEnv) (a : Automation) (runId : ℕ) (ledger : ActionLedger)
      (arr : Visit → ArrLive) (before after : List Visit) (v : Visit),
      runVisits env a = before ++ v :: after → a.rule.options.newDubOnly = true →
      env.fault (.select v) = none → (∀ n, (env.command v n).error = none) →
      let p := runThrough env a runId before (runStart env a ledger arr)
      0 < p.remaining →
      (sentTo v (runEnd env a runId ledger arr)).toFinset.card =
        min p.remaining (freshItems a (visitQuery env a v p).ordered).toFinset.card := by
  intro h
  have hcount := h (quietRadarr (dubbedMovies [1, 2])) (watcher 1 (by decide) [10]) 1
    KeyedTable.empty (fun _ => ArrLive.empty) [] [] ⟨.movie, "default"⟩ (by decide) rfl rfl
    (fun _ => rfl) (by decide)
  revert hcount
  decide +kernel

/-- With room for both, both new dubs are searched. -/
theorem fresh_movies_searched :
    let env := quietRadarr (dubbedMovies [1, 2])
    let a := watcher 2 (by decide) []
    let p := runThrough env a 1 [] (runStart env a KeyedTable.empty fun _ => ArrLive.empty)
    (sentTo ⟨.movie, "default"⟩ (runEnd env a 1 KeyedTable.empty fun _ =>
        ArrLive.empty)).toFinset.card =
      min p.remaining
        (freshItems a (visitQuery env a ⟨.movie, "default"⟩ p).ordered).toFinset.card :=
  (searches_fresh_iff (quietRadarr (dubbedMovies [1, 2])) (watcher 2 (by decide) []) 1
    KeyedTable.empty (fun _ => ArrLive.empty) [] [] ⟨.movie, "default"⟩ (by decide) rfl rfl
    (fun _ => rfl) (by decide)).mpr (Or.inr ⟨rfl, rfl, Or.inl (by decide +kernel)⟩)

end Nebularr
