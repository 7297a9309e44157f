import Nebularr.KeyedTable

/-!
# Soft deletion

Rows that are never removed, only flagged.  A store of this kind has two
kinds of write: an insert-or-update, which always leaves its row *live*, and
a conditional update, which raises the flag on the rows it selects.  What a
reader can observe of a row is whether it is live (`isLive`) and what its
columns hold (`cols`); the lemmas below say what the two writes do to both,
so that the flag algebra of a longer program reduces to Boolean algebra.
-/

/-- A row with a deletion flag. -/
structure SoftRow (α : Type) where
  cols : α
  deleted : Bool
deriving DecidableEq, Repr

namespace KeyedTable

variable {κ α : Type}

/-- `update … set deleted = true where p`. -/
def markDeletedWhere (p : κ → SoftRow α → Bool) (t : KeyedTable κ (SoftRow α)) :
    KeyedTable κ (SoftRow α) :=
  t.updateWhere p fun r => { r with deleted := true }

/-- `select count(*) … where p and not deleted`. -/
def countLiveWhere (p : κ → α → Bool) (t : KeyedTable κ (SoftRow α)) : Nat :=
  t.countWhere fun k r => p k r.cols && !r.deleted

variable [DecidableEq κ]

/-- The columns on file under a key, whether or not the row is live. -/
def cols (t : KeyedTable κ (SoftRow α)) (k : κ) : Option α := (t.row k).map SoftRow.cols

/-- There is a row under the key and it is not flagged. -/
def isLive (t : KeyedTable κ (SoftRow α)) (k : κ) : Bool := (t.row k).any fun r => !r.deleted

/-- Insert-or-update that clears the flag. -/
def upsertLive (k : κ) (fresh : α) (merge : α → α) (t : KeyedTable κ (SoftRow α)) :
    KeyedTable κ (SoftRow α) :=
  t.upsert k ⟨fresh, false⟩ fun r => ⟨merge r.cols, false⟩

@[simp] theorem isLive_empty (k : κ) : (empty : KeyedTable κ (SoftRow α)).isLive k = false := by
  simp [isLive]

@[simp] theorem cols_empty (k : κ) : (empty : KeyedTable κ (SoftRow α)).cols k = none := by
  simp [cols]

/-- A live row has columns. -/
theorem exists_cols_of_isLive {t : KeyedTable κ (SoftRow α)} {k : κ} (h : t.isLive k = true) :
    ∃ c, t.cols k = some c := by
  unfold isLive at h
  cases hr : t.row k with
  | none => simp [hr] at h
  | some r => exact ⟨r.cols, by simp [cols, hr]⟩

/-- An insert-or-update makes its own row live. -/
theorem isLive_upsertLive (t : KeyedTable κ (SoftRow α)) (k k' : κ) (fresh : α) (merge : α → α) :
    (t.upsertLive k fresh merge).isLive k' = (decide (k' = k) || t.isLive k') := by
  by_cases h : k' = k
  · subst h
    cases hr : t.row k' <;> simp [isLive, upsertLive, hr]
  · simp [isLive, upsertLive, row_upsert_of_ne h, h]

/-- An insert-or-update merges into the columns on file. -/
theorem cols_upsertLive (t : KeyedTable κ (SoftRow α)) (k k' : κ) (fresh : α) (merge : α → α) :
    (t.upsertLive k fresh merge).cols k' =
      if k' = k then some (((t.cols k).map merge).getD fresh) else t.cols k' := by
  by_cases h : k' = k
  · subst h
    cases hr : t.row k' <;> simp [cols, upsertLive, hr]
  · simp [cols, upsertLive, row_upsert_of_ne h, h]

/-- Flagging rows leaves all columns alone. -/
@[simp] theorem cols_markDeletedWhere (p : κ → SoftRow α → Bool) (t : KeyedTable κ (SoftRow α))
    (k : κ) : (t.markDeletedWhere p).cols k = t.cols k := by
  unfold cols markDeletedWhere
  rw [row_updateWhere, Option.map_map]
  congr 1
  funext r
  by_cases hp : p k r = true <;> simp [hp]

/-- A row stays live through a flagging update unless the update selects it.
The condition `p` of the statement may look at the flag; `q` is what it says
of a row that is still live. -/
theorem isLive_markDeletedWhere {p : κ → SoftRow α → Bool} {q : κ → α → Bool}
    (hpq : ∀ k c, p k ⟨c, false⟩ = q k c) (t : KeyedTable κ (SoftRow α)) (k : κ) :
    (t.markDeletedWhere p).isLive k = (t.isLive k && !(t.cols k).any (q k)) := by
  unfold isLive cols markDeletedWhere
  rw [row_updateWhere]
  cases hr : t.row k with
  | none => rfl
  | some r =>
      obtain ⟨c, deleted⟩ := r
      cases deleted with
      | true => by_cases hp : p k ⟨c, true⟩ = true <;> simp [hp]
      | false => by_cases hp : q k c = true <;> simp [hpq, hp]

/-! ### Batches -/

section Batches

variable {β γ : Type}

/-- A batch of inserts-or-updates, in order. -/
def upsertAllLive (key : β → κ) (fresh : β → α) (merge : β → α → α) (items : List β)
    (t : KeyedTable κ (SoftRow α)) : KeyedTable κ (SoftRow α) :=
  items.foldl (fun t b => t.upsertLive (key b) (fresh b) (merge b)) t

variable (key : β → κ) (fresh : β → α) (merge : β → α → α)

/-- **A batch makes live exactly the keys it writes.** -/
theorem isLive_upsertAllLive (items : List β) (t : KeyedTable κ (SoftRow α)) (k : κ) :
    (t.upsertAllLive key fresh merge items).isLive k =
      (decide (k ∈ items.map key) || t.isLive k) := by
  unfold upsertAllLive
  induction items generalizing t with
  | nil => simp
  | cons b rest ih =>
      rw [List.foldl_cons, ih, isLive_upsertLive]
      simp only [List.map_cons, List.mem_cons, Bool.decide_or]
      ac_rfl

/-- **A column no merge touches is settled by the first write.**  It keeps
the value on file, and takes the value of the first item of the batch under a
key that is new. -/
theorem proj_upsertAllLive (proj : α → γ) (hmerge : ∀ b a, proj (merge b a) = proj a)
    (items : List β) (t : KeyedTable κ (SoftRow α)) (k : κ) :
    ((t.upsertAllLive key fresh merge items).cols k).map proj =
      ((t.cols k).map proj).or
        ((items.find? fun b => decide (key b = k)).map fun b => proj (fresh b)) := by
  unfold upsertAllLive
  induction items generalizing t with
  | nil => simp
  | cons b rest ih =>
      rw [List.foldl_cons, ih, cols_upsertLive]
      by_cases h : k = key b
      · subst h
        cases t.cols (key b) <;> simp [hmerge]
      · have h' : ¬ key b = k := fun heq => h heq.symm
        simp [h, h']

/-- A row outside the batch is not touched. -/
theorem row_upsertAllLive_of_notMem {items : List β} {k : κ} (h : k ∉ items.map key)
    (t : KeyedTable κ (SoftRow α)) :
    (t.upsertAllLive key fresh merge items).row k = t.row k := by
  unfold upsertAllLive
  induction items generalizing t with
  | nil => rfl
  | cons b rest ih =>
      simp only [List.map_cons, List.mem_cons, not_or] at h
      rw [List.foldl_cons, ih h.2, upsertLive, row_upsert_of_ne h.1]

/-- A row of the batch holds what its item brought, when the merge replaces
every column and no other item of the batch has its key. -/
theorem row_upsertAllLive_of_mem (hmerge : ∀ b a, merge b a = fresh b) {items : List β}
    (hnodup : (items.map key).Nodup) {b : β} (hb : b ∈ items) (t : KeyedTable κ (SoftRow α)) :
    (t.upsertAllLive key fresh merge items).row (key b) = some ⟨fresh b, false⟩ := by
  induction items generalizing t with
  | nil => cases hb
  | cons first rest ih =>
      rw [List.map_cons, List.nodup_cons] at hnodup
      obtain ⟨hnew, hrest⟩ := hnodup
      have hstep : t.upsertAllLive key fresh merge (first :: rest) =
          (t.upsertLive (key first) (fresh first) (merge first)).upsertAllLive key fresh merge
            rest := rfl
      rw [hstep]
      rcases List.mem_cons.mp hb with rfl | hb
      · rw [row_upsertAllLive_of_notMem key fresh merge hnew, upsertLive, row_upsert_self]
        cases t.row (key b) with
        | none => rfl
        | some r => rw [Option.map_some, Option.getD_some, hmerge]
      · exact ih hrest hb _

end Batches

/-- A row the update does not select keeps its columns and its flag. -/
theorem row_markDeletedWhere_of_not {p : κ → SoftRow α → Bool} {k : κ}
    (h : ∀ r, p k r = false) (t : KeyedTable κ (SoftRow α)) :
    (t.markDeletedWhere p).row k = t.row k := by
  rw [markDeletedWhere, row_updateWhere]
  cases t.row k with
  | none => rfl
  | some r => simp [h]

/-! ### Last write wins -/

/-- What *last write wins* asks of one write to the key `k` of `t`: the
columns under `k` are those the write leaves in an empty table, the row is
live, and no other row changes. -/
structure LastWriteWins (write : KeyedTable κ (SoftRow α) → KeyedTable κ (SoftRow α)) (k : κ)
    (t : KeyedTable κ (SoftRow α)) : Prop where
  columns : (write t).cols k = (write empty).cols k
  live : (write t).isLive k = true
  others : ∀ k', k' ≠ k → (write t).row k' = t.row k'

/-- **An insert-or-update is last-write-wins exactly when its merge brings the
columns on file, if any, to the fresh ones.** -/
theorem lastWriteWins_upsertLive_iff {k : κ} {fresh : α} {merge : α → α}
    {t : KeyedTable κ (SoftRow α)} :
    LastWriteWins (upsertLive k fresh merge) k t ↔
      ∀ old, t.cols k = some old → merge old = fresh := by
  constructor
  · rintro h old hold
    have hcols := h.columns
    rw [cols_upsertLive, cols_upsertLive, hold, cols_empty] at hcols
    simpa using hcols
  · intro h
    refine ⟨?_, ?_, ?_⟩
    · rw [cols_upsertLive, cols_upsertLive, cols_empty]
      cases hold : t.cols k with
      | none => rfl
      | some old => simp [h old hold]
    · simp [isLive_upsertLive]
    · intro k' hne
      exact row_upsert_of_ne hne _ _

/-- A merge that ignores the row on file is last-write-wins everywhere. -/
theorem lastWriteWins_upsertLive_const (k : κ) (fresh : α) (t : KeyedTable κ (SoftRow α)) :
    LastWriteWins (upsertLive k fresh fun _ => fresh) k t :=
  lastWriteWins_upsertLive_iff.mpr fun _ _ => rfl

/-! ### Updates that flag nothing -/

/-- There is a row under the key and it is flagged. -/
def isMarked (t : KeyedTable κ (SoftRow α)) (k : κ) : Bool := (t.row k).any SoftRow.deleted

/-- A row on file that is not live is flagged. -/
theorem isMarked_of_isLive_eq_false {t : KeyedTable κ (SoftRow α)} {k : κ} {c : α}
    (hc : t.cols k = some c) (h : t.isLive k = false) : t.isMarked k = true := by
  obtain ⟨r, hr, -⟩ := Option.map_eq_some_iff.mp hc
  simpa [isMarked, isLive, hr] using h

/-- From `t` to `t'` no row was flagged and no live row was lost. -/
structure NoneMarked (t t' : KeyedTable κ (SoftRow α)) : Prop where
  marked : ∀ k, t'.isMarked k = true → t.isMarked k = true
  live : ∀ k, t.isLive k = true → t'.isLive k = true

theorem NoneMarked.refl (t : KeyedTable κ (SoftRow α)) : NoneMarked t t :=
  ⟨fun _ h => h, fun _ h => h⟩

theorem NoneMarked.trans {t t' t'' : KeyedTable κ (SoftRow α)} (h : NoneMarked t t')
    (h' : NoneMarked t' t'') : NoneMarked t t'' :=
  ⟨fun k hk => h.marked k (h'.marked k hk), fun k hk => h'.live k (h.live k hk)⟩

/-- An insert-or-update flags nothing. -/
theorem noneMarked_upsertLive (t : KeyedTable κ (SoftRow α)) (k : κ) (fresh : α)
    (merge : α → α) : NoneMarked t (t.upsertLive k fresh merge) := by
  constructor
  · intro k' hmarked
    by_cases h : k' = k
    · subst h
      cases hr : t.row k' <;> simp [isMarked, upsertLive, hr] at hmarked
    · simpa [isMarked, upsertLive, row_upsert_of_ne h] using hmarked
  · intro k' hlive
    rw [isLive_upsertLive, hlive, Bool.or_true]

/-- A batch of inserts-or-updates flags nothing. -/
theorem noneMarked_upsertAllLive {β : Type} (key : β → κ) (fresh : β → α) (merge : β → α → α)
    (items : List β) (t : KeyedTable κ (SoftRow α)) :
    NoneMarked t (t.upsertAllLive key fresh merge items) := by
  unfold upsertAllLive
  induction items generalizing t with
  | nil => exact NoneMarked.refl t
  | cons b rest ih => exact (noneMarked_upsertLive t _ _ _).trans (ih _)

end KeyedTable
