import Mathlib.Data.List.AList

/-!
# Tables with a primary key

A table holds at most one row under each key.  The rows are Mathlib's
association list `AList`, whose `nodupKeys` field is the primary-key
constraint, so a table with two rows under one key cannot be built.  On top
of it come the statements a relational store runs: insert-or-update, update
where, delete where, select where.  Each has one lemma that says what it
leaves under an arbitrary key; nothing later unfolds the list.
-/

/-- A table with rows `ρ` under a primary key `κ`. -/
structure KeyedTable (κ ρ : Type) where
  rows : AList (fun _ : κ => ρ)

namespace KeyedTable

variable {κ ρ : Type}

/-- The table without rows. -/
def empty : KeyedTable κ ρ := ⟨∅⟩

/-- Rewrite every row in place; keys stay. -/
def mapRows (f : κ → ρ → ρ) (t : KeyedTable κ ρ) : KeyedTable κ ρ where
  rows :=
    { entries := t.rows.entries.map fun e => ⟨e.1, f e.1 e.2⟩
      nodupKeys := by
        have hkeys : (t.rows.entries.map fun e => (⟨e.1, f e.1 e.2⟩ : Sigma fun _ : κ => ρ)).keys =
            t.rows.entries.keys := by
          simp [List.keys, Function.comp_def]
        have hnodup := t.rows.nodupKeys
        unfold List.NodupKeys at hnodup ⊢
        rwa [hkeys] }

/-- `update … set … where p`: rewrite the rows that satisfy `p`. -/
def updateWhere (p : κ → ρ → Bool) (f : ρ → ρ) (t : KeyedTable κ ρ) : KeyedTable κ ρ :=
  t.mapRows fun k r => if p k r then f r else r

/-- `select … where p`, in no particular order. -/
def selectWhere (p : κ → ρ → Bool) (t : KeyedTable κ ρ) : List (κ × ρ) :=
  (t.rows.entries.map fun e => (e.1, e.2)).filter fun e => p e.1 e.2

/-- `select count(*) … where p`. -/
def countWhere (p : κ → ρ → Bool) (t : KeyedTable κ ρ) : Nat :=
  (t.selectWhere p).length

/-- `delete … where p`. -/
def deleteWhere (p : κ → ρ → Bool) (t : KeyedTable κ ρ) : KeyedTable κ ρ where
  rows :=
    { entries := t.rows.entries.filter fun e => !p e.1 e.2
      nodupKeys := t.rows.nodupKeys.sublist List.filter_sublist }

/-- No key is selected twice. -/
theorem nodup_selectWhere (p : κ → ρ → Bool) (t : KeyedTable κ ρ) :
    ((t.selectWhere p).map Prod.fst).Nodup := by
  have hkeys : (t.rows.entries.map fun e => e.1).Nodup := t.rows.nodupKeys
  refine hkeys.sublist ?_
  rw [selectWhere, List.filter_map, List.map_map]
  exact List.filter_sublist.map _

theorem countWhere_eq_countP {p : κ → ρ → Bool} {t : KeyedTable κ ρ} :
    t.countWhere p = t.rows.entries.countP fun e => p e.1 e.2 := by
  rw [countWhere, selectWhere, ← List.countP_eq_length_filter, List.countP_map]
  rfl

variable [DecidableEq κ]

/-- The row under a key, if there is one. -/
def row (t : KeyedTable κ ρ) (k : κ) : Option ρ := t.rows.lookup k

/-- `insert … on conflict do update`: `fresh` when the key is new, `merge` of
the row on file otherwise. -/
def upsert (k : κ) (fresh : ρ) (merge : ρ → ρ) (t : KeyedTable κ ρ) : KeyedTable κ ρ :=
  ⟨t.rows.insert k (((t.row k).map merge).getD fresh)⟩

@[simp] theorem row_empty (k : κ) : (empty : KeyedTable κ ρ).row k = none :=
  AList.lookup_empty k

/-- A row is under a key exactly when the list holds the pair. -/
theorem row_eq_some_iff {t : KeyedTable κ ρ} {k : κ} {r : ρ} :
    t.row k = some r ↔ Sigma.mk k r ∈ t.rows.entries :=
  AList.mem_lookup_iff (b := r) (s := t.rows)

/-- An upsert leaves the merged or fresh row under its key and every other
row alone. -/
theorem row_upsert (t : KeyedTable κ ρ) (k k' : κ) (fresh : ρ) (merge : ρ → ρ) :
    (t.upsert k fresh merge).row k' =
      if k' = k then some (((t.row k).map merge).getD fresh) else t.row k' := by
  by_cases h : k' = k
  · subst h
    simp [upsert, row, AList.lookup_insert]
  · simp [upsert, row, AList.lookup_insert_ne h, h]

@[simp] theorem row_upsert_self (t : KeyedTable κ ρ) (k : κ) (fresh : ρ) (merge : ρ → ρ) :
    (t.upsert k fresh merge).row k = some (((t.row k).map merge).getD fresh) := by
  simp [row_upsert]

theorem row_upsert_of_ne {t : KeyedTable κ ρ} {k k' : κ} (h : k' ≠ k) (fresh : ρ)
    (merge : ρ → ρ) : (t.upsert k fresh merge).row k' = t.row k' := by
  simp [row_upsert, h]

/-- **A partial unique index.**  The values that `f` gives to the rows are all
different exactly when no two rows have the same one. -/
theorem nodup_index_iff {γ : Type} (f : ρ → Option γ) (t : KeyedTable κ ρ) :
    (t.rows.entries.filterMap fun e => f e.2).Nodup ↔
      ∀ k r k' r' c, t.row k = some r → t.row k' = some r' → f r = some c → f r' = some c →
        k = k' := by
  have hkeys : t.rows.entries.Pairwise fun e e' => e.1 ≠ e'.1 :=
    List.pairwise_map.mp t.rows.nodupKeys
  rw [List.Nodup, List.pairwise_filterMap]
  constructor
  · intro h k r k' r' c hrow hrow' hc hc'
    by_contra hne
    have hsymm : Std.Symm fun e e' : Sigma fun _ : κ => ρ =>
        ∀ b, f e.2 = some b → ∀ b', f e'.2 = some b' → b ≠ b' :=
      ⟨fun e e' hee b hb b' hb' => (hee b' hb' b hb).symm⟩
    have hdiffer := h.forall (row_eq_some_iff.mp hrow) (row_eq_some_iff.mp hrow')
      (fun heq => hne (congrArg Sigma.fst heq))
    exact hdiffer c hc c hc' rfl
  · intro h
    refine hkeys.imp_of_mem ?_
    intro e e' he he' hne b hb b' hb' heq
    subst heq
    exact hne (h e.1 e.2 e'.1 e'.2 b (row_eq_some_iff.mpr he) (row_eq_some_iff.mpr he') hb hb')

/-- Rewriting in place acts row by row. -/
theorem row_mapRows (f : κ → ρ → ρ) (t : KeyedTable κ ρ) (k : κ) :
    (t.mapRows f).row k = (t.row k).map (f k) := by
  apply Option.ext
  intro r
  rw [Option.map_eq_some_iff, row_eq_some_iff]
  simp only [mapRows, List.mem_map, row_eq_some_iff]
  constructor
  · rintro ⟨⟨k', r'⟩, hmem, heq⟩
    obtain ⟨rfl, hr⟩ := Sigma.mk.inj heq
    exact ⟨r', hmem, eq_of_heq hr⟩
  · rintro ⟨r', hmem, rfl⟩
    exact ⟨⟨k, r'⟩, hmem, rfl⟩

/-- An update where acts on the rows that satisfy its condition. -/
@[simp] theorem row_updateWhere (p : κ → ρ → Bool) (f : ρ → ρ) (t : KeyedTable κ ρ) (k : κ) :
    (t.updateWhere p f).row k = (t.row k).map fun r => if p k r then f r else r := by
  rw [updateWhere, row_mapRows]

/-- The selected pairs are the rows on file that satisfy the condition. -/
theorem mem_selectWhere_iff {p : κ → ρ → Bool} {t : KeyedTable κ ρ} {k : κ} {r : ρ} :
    (k, r) ∈ t.selectWhere p ↔ t.row k = some r ∧ p k r = true := by
  simp only [selectWhere, List.mem_filter, List.mem_map, row_eq_some_iff]
  constructor
  · rintro ⟨⟨⟨k', r'⟩, hmem, heq⟩, hp⟩
    obtain ⟨rfl, rfl⟩ := Prod.mk.inj heq
    exact ⟨hmem, hp⟩
  · rintro ⟨hmem, hp⟩
    exact ⟨⟨⟨k, r⟩, hmem, rfl⟩, hp⟩

/-- Up to order, a select is what a list of the keys that it may select finds
under them. -/
theorem selectWhere_perm {p : κ → ρ → Bool} {t : KeyedTable κ ρ} {keys : List κ}
    (hkeys : keys.Nodup) (hall : ∀ k r, t.row k = some r → p k r = true → k ∈ keys) :
    (t.selectWhere p).Perm
      (keys.filterMap fun k => ((t.row k).filter (p k)).map (Prod.mk k)) := by
  have hfound : ∀ k k' r, ((t.row k).filter (p k)).map (Prod.mk k) = some (k', r) ↔
      k = k' ∧ t.row k' = some r ∧ p k' r = true := by
    intro k k' r
    rw [Option.map_eq_some_iff]
    simp only [Option.filter_eq_some_iff, Prod.mk.injEq]
    constructor
    · rintro ⟨r', ⟨hrow, hp⟩, rfl, rfl⟩
      exact ⟨rfl, hrow, hp⟩
    · rintro ⟨rfl, hrow, hp⟩
      exact ⟨r, ⟨hrow, hp⟩, rfl, rfl⟩
  have hnodup : (keys.filterMap fun k => ((t.row k).filter (p k)).map (Prod.mk k)).Nodup := by
    refine hkeys.filterMap ?_
    rintro k k' ⟨k'', r⟩ hk hk'
    exact ((hfound _ _ _).mp hk).1.trans ((hfound _ _ _).mp hk').1.symm
  refine (List.perm_ext_iff_of_nodup (t.nodup_selectWhere p).of_map hnodup).mpr ?_
  rintro ⟨k, r⟩
  rw [mem_selectWhere_iff, List.mem_filterMap]
  constructor
  · intro h
    exact ⟨k, hall k r h.1 h.2, (hfound _ _ _).mpr ⟨rfl, h⟩⟩
  · rintro ⟨k', -, hk'⟩
    exact ((hfound _ _ _).mp hk').2

/-- An insert under a new key adds one row to a select. -/
theorem selectWhere_upsert_of_new {t : KeyedTable κ ρ} {k : κ} (h : t.row k = none)
    (p : κ → ρ → Bool) (fresh : ρ) (merge : ρ → ρ) :
    (t.upsert k fresh merge).selectWhere p =
      (if p k fresh then [(k, fresh)] else []) ++ t.selectWhere p := by
  have hnew : k ∉ t.rows := AList.lookup_eq_none.mp h
  have hentries : (t.upsert k fresh merge).rows.entries = ⟨k, fresh⟩ :: t.rows.entries := by
    rw [upsert, h]
    exact AList.entries_insert_of_notMem hnew
  rw [selectWhere, selectWhere, hentries, List.map_cons, List.filter_cons]
  split <;> rfl

/-- A condition that fixes the key selects one row at most. -/
theorem countWhere_le_one {p : κ → ρ → Bool} {t : KeyedTable κ ρ} (k : κ)
    (h : ∀ k' r, t.row k' = some r → p k' r = true → k' = k) : t.countWhere p ≤ 1 := by
  have hsub : (t.selectWhere p).map Prod.fst ⊆ [k] := by
    intro k' hk'
    obtain ⟨⟨_, r⟩, hmem, rfl⟩ := List.mem_map.mp hk'
    obtain ⟨hrow, hp⟩ := mem_selectWhere_iff.mp hmem
    exact List.mem_singleton.mpr (h _ r hrow hp)
  have hlength := (List.subperm_of_subset (t.nodup_selectWhere p) hsub).length_le
  rwa [List.length_map] at hlength

/-- A count is positive exactly when some row satisfies the condition. -/
theorem countWhere_pos_iff {p : κ → ρ → Bool} {t : KeyedTable κ ρ} :
    0 < t.countWhere p ↔ ∃ k r, t.row k = some r ∧ p k r = true := by
  rw [countWhere, List.length_pos_iff_exists_mem]
  constructor
  · rintro ⟨⟨k, r⟩, h⟩
    exact ⟨k, r, mem_selectWhere_iff.mp h⟩
  · rintro ⟨k, r, h⟩
    exact ⟨(k, r), mem_selectWhere_iff.mpr h⟩

/-- A delete where keeps the rows that fail its condition. -/
@[simp] theorem row_deleteWhere (p : κ → ρ → Bool) (t : KeyedTable κ ρ) (k : κ) :
    (t.deleteWhere p).row k = (t.row k).filter fun r => !p k r := by
  apply Option.ext
  intro r
  rw [Option.filter_eq_some_iff, row_eq_some_iff, row_eq_some_iff]
  simp [deleteWhere, List.mem_filter]

end KeyedTable
