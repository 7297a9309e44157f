import Mathlib.Algebra.BigOperators.Group.List.Basic
import Mathlib.Algebra.Order.Ring.Int
import Mathlib.Algebra.Order.Ring.Nat
import Mathlib.Data.List.Dedup
import Mathlib.Tactic.Common
import Nebularr.JoinSums

/-!
# Groups of rows

`select key, agg(…) … group by key`: one row for each key that occurs, with an
aggregate of the rows under it.  The groups make up the rows
(`flatMap_groupOf_perm`), so that what adds up over rows adds up over groups
(`sum_groupOf`).
-/

section Groups

variable {α β κ M : Type} [DecidableEq κ]

/-- The rows under a key. -/
def groupOf (keyOf : α → κ) (rows : List α) (key : κ) : List α :=
  rows.filter fun row => keyOf row = key

/-- `select key, agg(…) … group by key`. -/
def groupBy (keyOf : α → κ) (agg : List α → β) (rows : List α) : List (κ × β) :=
  (rows.map keyOf).dedup.map fun key => (key, agg (groupOf keyOf rows key))

variable {keyOf : α → κ} {agg : List α → β} {rows : List α} {key : κ}

theorem mem_groupOf {row : α} : row ∈ groupOf keyOf rows key ↔ row ∈ rows ∧ keyOf row = key := by
  simp [groupOf]

theorem groupOf_append (rows rows' : List α) :
    groupOf keyOf (rows ++ rows') key = groupOf keyOf rows key ++ groupOf keyOf rows' key :=
  List.filter_append ..

theorem groupOf_ne_nil_iff : groupOf keyOf rows key ≠ [] ↔ ∃ row ∈ rows, keyOf row = key := by
  rw [← List.length_pos_iff, List.length_pos_iff_exists_mem]
  simp only [mem_groupOf]

theorem keys_groupBy : (groupBy keyOf agg rows).map Prod.fst = (rows.map keyOf).dedup := by
  rw [groupBy, List.map_map]
  exact List.map_id _

/-- No key has two groups. -/
theorem nodup_keys_groupBy : ((groupBy keyOf agg rows).map Prod.fst).Nodup := by
  rw [keys_groupBy]
  exact List.nodup_dedup _

theorem mem_groupBy_iff {group : κ × β} :
    group ∈ groupBy keyOf agg rows ↔
      (∃ row ∈ rows, keyOf row = group.1) ∧ group.2 = agg (groupOf keyOf rows group.1) := by
  obtain ⟨key, b⟩ := group
  simp only [groupBy, List.mem_map, List.mem_dedup, Prod.mk.injEq]
  constructor
  · rintro ⟨key', hkey, rfl, rfl⟩
    exact ⟨hkey, rfl⟩
  · rintro ⟨hkey, rfl⟩
    exact ⟨key, hkey, rfl, rfl⟩

/-- The one group of a key. -/
theorem groupOf_groupBy (key : κ) :
    groupOf Prod.fst (groupBy keyOf agg rows) key =
      if ∃ row ∈ rows, keyOf row = key then [(key, agg (groupOf keyOf rows key))] else [] := by
  have hmap : groupOf Prod.fst (groupBy keyOf agg rows) key =
      ((rows.map keyOf).dedup.filter (· = key)).map fun key =>
        (key, agg (groupOf keyOf rows key)) := by
    rw [groupOf, groupBy, List.filter_map]
    rfl
  rw [hmap]
  split
  next hsome =>
      have hmem : key ∈ (rows.map keyOf).dedup := by
        rw [List.mem_dedup]
        exact List.mem_map.mpr hsome
      have hone : (rows.map keyOf).dedup.filter (· = key) = [key] := by
        rw [List.filter_eq, List.count_eq_one_of_mem (List.nodup_dedup _) hmem]
        rfl
      rw [hone]
      rfl
  next hnone =>
      have hnil : (rows.map keyOf).dedup.filter (· = key) = [] := by
        rw [List.filter_eq_nil_iff]
        intro key' hmem heq
        rw [List.mem_dedup, of_decide_eq_true heq] at hmem
        exact hnone (List.mem_map.mp hmem)
      rw [hnil]
      rfl

/-- The same, of the rows a query makes of groups. -/
theorem groupOf_map_groupBy {γ : Type} {nameOf : γ → κ} {build : κ × β → γ}
    (h : ∀ group, nameOf (build group) = group.1) (key : κ) :
    groupOf nameOf ((groupBy keyOf agg rows).map build) key =
      if ∃ row ∈ rows, keyOf row = key then [build (key, agg (groupOf keyOf rows key))]
        else [] := by
  have hmap : groupOf nameOf ((groupBy keyOf agg rows).map build) key =
      (groupOf Prod.fst (groupBy keyOf agg rows) key).map build := by
    rw [groupOf, List.filter_map, groupOf]
    simp only [Function.comp_def, h]
  rw [hmap, groupOf_groupBy]
  exact apply_ite (List.map build) _ _ _

theorem groupOf_cons_of_ne {row : α} (h : keyOf row ≠ key) (rest : List α) :
    groupOf keyOf (row :: rest) key = groupOf keyOf rest key :=
  List.filter_cons_of_neg (by simpa using h)

/-- **The groups of all keys are the rows.** -/
theorem flatMap_groupOf_perm {keys : List κ} (hnodup : keys.Nodup)
    (hall : ∀ row ∈ rows, keyOf row ∈ keys) :
    (keys.flatMap (groupOf keyOf rows)).Perm rows := by
  induction rows with
  | nil =>
      have hnil : keys.flatMap (groupOf keyOf []) = [] := List.flatMap_eq_nil_iff.mpr fun _ _ => rfl
      rw [hnil]
  | cons row rest ih =>
      -- only the group of the row's own key has it, in front
      obtain ⟨before, after, hkeys⟩ := List.append_of_mem (hall row List.mem_cons_self)
      have hrest := ih fun other hother => hall other (List.mem_cons_of_mem _ hother)
      rw [hkeys] at hnodup hrest ⊢
      have hown := (List.nodup_middle.mp hnodup)
      have hsame : ∀ key ∈ before ++ after,
          groupOf keyOf (row :: rest) key = groupOf keyOf rest key := by
        intro key hkey
        apply groupOf_cons_of_ne
        intro heq
        exact (List.nodup_cons.mp hown).1 (heq ▸ hkey)
      have hself : groupOf keyOf (row :: rest) (keyOf row) = row ::
          groupOf keyOf rest (keyOf row) :=
        List.filter_cons_of_pos (by simp)
      have hbefore : before.flatMap (groupOf keyOf (row :: rest)) =
          before.flatMap (groupOf keyOf rest) :=
        List.flatMap_congr fun key hkey => hsame key (List.mem_append_left _ hkey)
      have hafter : after.flatMap (groupOf keyOf (row :: rest)) =
          after.flatMap (groupOf keyOf rest) :=
        List.flatMap_congr fun key hkey => hsame key (List.mem_append_right _ hkey)
      rw [List.flatMap_append, List.flatMap_cons] at hrest ⊢
      rw [hbefore, hafter, hself, List.cons_append]
      exact List.perm_middle.trans (hrest.cons row)

section Sums

variable [AddCommMonoid M]

/-- **What adds up over rows adds up over groups.** -/
theorem sum_groupOf {keys : List κ} (hnodup : keys.Nodup) (hall : ∀ row ∈ rows, keyOf row ∈ keys)
    (weight : α → M) :
    (keys.map fun key => ((groupOf keyOf rows key).map weight).sum).sum =
      (rows.map weight).sum := by
  rw [← sum_flatMap]
  exact ((flatMap_groupOf_perm hnodup hall).map weight).sum_eq

/-- The counts of groups add up to the count of the rows. -/
theorem sum_length_groupOf {keys : List κ} (hnodup : keys.Nodup)
    (hall : ∀ row ∈ rows, keyOf row ∈ keys) :
    (keys.map fun key => (groupOf keyOf rows key).length).sum = rows.length := by
  have hsum := sum_groupOf hnodup hall fun _ => 1
  simpa using hsum

end Sums

end Groups

/-! ## Aggregates over values that may be null -/

section Aggregates

variable {M : Type}

/-- `sum(…)`: null where all values are. -/
def sqlSum [Add M] [Zero M] (values : List (Option M)) : Option M :=
  match values.filterMap id with
  | [] => none
  | known => some known.sum

/-- `max(…)`: null where all values are. -/
def sqlMax [Max M] (values : List (Option M)) : Option M := (values.filterMap id).max?

variable [AddCommMonoid M]

theorem sum_filterMap_id (values : List (Option M)) :
    (values.filterMap id).sum = (values.map fun value => value.getD 0).sum := by
  induction values with
  | nil => rfl
  | cons value rest ih =>
      cases value with
      | none => simpa using ih
      | some x => simpa using congrArg (x + ·) ih

/-- `coalesce(sum(…), 0)`. -/
theorem sqlSum_getD (values : List (Option M)) :
    (sqlSum values).getD 0 = (values.map fun value => value.getD 0).sum := by
  rw [← sum_filterMap_id, sqlSum]
  split
  next hnil => rw [hnil, List.sum_nil, Option.getD_none]
  next => rw [Option.getD_some]

end Aggregates
