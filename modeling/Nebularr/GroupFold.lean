import Mathlib.Algebra.BigOperators.Group.List.Basic
import Mathlib.Algebra.Order.Ring.Nat
import Mathlib.Data.List.Induction
import Mathlib.Data.List.Nodup
import Mathlib.Tactic.Common

/-!
# Grouping into an insertion-ordered dictionary

A loop over rows that keeps one entry a key: the first row of a key opens its
entry, every row of the key updates it, and the entries stand in the order in
which they were opened.  What holds of an entry is shown row by row, by
`groupFold_induction`.
-/

namespace Nebularr

variable {α κ β : Type} [DecidableEq κ]

/-- `d[key] = f(d.setdefault(key, fresh))`. -/
def updateKey (key : κ) (fresh : β) (f : β → β) : List (κ × β) → List (κ × β)
  | [] => [(key, f fresh)]
  | (k, b) :: rest => if k = key then (k, f b) :: rest else (k, b) :: updateKey key fresh f rest

/-- The dictionary that the loop leaves. -/
def groupFold (keyOf : α → κ) (fresh : α → β) (f : α → β → β) (rows : List α) : List (κ × β) :=
  rows.foldl (fun d row => updateKey (keyOf row) (fresh row) (f row) d) []

section Update

variable {key : κ} {fresh : β} {f : β → β} {d : List (κ × β)}

theorem mem_keys_updateKey {k : κ} :
    k ∈ (updateKey key fresh f d).map Prod.fst ↔ k = key ∨ k ∈ d.map Prod.fst := by
  induction d with
  | nil => simp [updateKey]
  | cons entry rest ih =>
      unfold updateKey
      by_cases heq : entry.1 = key
      · simp [heq]
      · rw [if_neg heq, List.map_cons, List.mem_cons, ih, List.map_cons, List.mem_cons]
        exact or_left_comm

theorem nodup_keys_updateKey (h : (d.map Prod.fst).Nodup) :
    ((updateKey key fresh f d).map Prod.fst).Nodup := by
  induction d with
  | nil => simp [updateKey]
  | cons entry rest ih =>
      rw [List.map_cons, List.nodup_cons] at h
      unfold updateKey
      by_cases heq : entry.1 = key
      · rw [if_pos heq, List.map_cons, List.nodup_cons]
        exact h
      · rw [if_neg heq, List.map_cons, List.nodup_cons]
        refine ⟨fun hmem => ?_, ih h.2⟩
        rcases mem_keys_updateKey.mp hmem with hkey | hrest
        · exact heq hkey
        · exact h.1 hrest

theorem lookup_cons_of_ne {k k' : κ} (h : k ≠ k') (b : β) (rest : List (κ × β)) :
    List.lookup k ((k', b) :: rest) = rest.lookup k := by
  rw [List.lookup_cons, beq_false_of_ne h]

/-- Only the entry of the key changes. -/
theorem lookup_updateKey (k : κ) :
    (updateKey key fresh f d).lookup k =
      if k = key then some (f ((d.lookup key).getD fresh)) else d.lookup k := by
  induction d with
  | nil =>
      by_cases hk : k = key
      · rw [if_pos hk, hk]
        exact List.lookup_cons_self
      · rw [if_neg hk]
        exact lookup_cons_of_ne hk _ []
  | cons entry rest ih =>
      obtain ⟨first, b⟩ := entry
      unfold updateKey
      by_cases heq : first = key
      · subst heq
        rw [if_pos rfl]
        by_cases hk : k = first
        · subst hk
          rw [if_pos rfl, List.lookup_cons_self, List.lookup_cons_self]
          rfl
        · rw [if_neg hk, lookup_cons_of_ne hk, lookup_cons_of_ne hk]
      · rw [if_neg heq, lookup_cons_of_ne (Ne.symm heq)]
        by_cases hk : k = first
        · subst hk
          rw [if_neg heq, List.lookup_cons_self, List.lookup_cons_self]
        · rw [lookup_cons_of_ne hk, lookup_cons_of_ne hk, ih]

/-- A new key goes to the end. -/
theorem updateKey_of_notMem (h : key ∉ d.map Prod.fst) :
    updateKey key fresh f d = d ++ [(key, f fresh)] := by
  induction d with
  | nil => rfl
  | cons entry rest ih =>
      rw [List.map_cons, List.mem_cons, not_or] at h
      rw [updateKey, if_neg (Ne.symm h.1), ih h.2, List.cons_append]

theorem length_updateKey_le : (updateKey key fresh f d).length ≤ d.length + 1 := by
  induction d with
  | nil => exact Nat.le_refl 1
  | cons entry rest ih =>
      unfold updateKey
      by_cases heq : entry.1 = key
      · rw [if_pos heq]
        exact Nat.le_succ _
      · rw [if_neg heq]
        exact Nat.succ_le_succ ih

theorem length_updateKey_of_mem (h : key ∈ d.map Prod.fst) :
    (updateKey key fresh f d).length = d.length := by
  induction d with
  | nil => cases h
  | cons entry rest ih =>
      unfold updateKey
      by_cases heq : entry.1 = key
      · rw [if_pos heq]
        rfl
      · rw [List.map_cons, List.mem_cons] at h
        rw [if_neg heq, List.length_cons, ih (h.resolve_left (Ne.symm heq)), List.length_cons]

/-- An entry after an update: of another key, updated, or opened. -/
theorem mem_updateKey (h : (d.map Prod.fst).Nodup) {entry : κ × β}
    (hmem : entry ∈ updateKey key fresh f d) :
    (entry.1 ≠ key ∧ entry ∈ d) ∨ (∃ b, (key, b) ∈ d ∧ entry = (key, f b)) ∨
      (key ∉ d.map Prod.fst ∧ entry = (key, f fresh)) := by
  induction d with
  | nil =>
      obtain rfl := List.mem_singleton.mp hmem
      exact Or.inr (Or.inr ⟨List.not_mem_nil, rfl⟩)
  | cons first rest ih =>
      rw [List.map_cons, List.nodup_cons] at h
      unfold updateKey at hmem
      by_cases heq : first.1 = key
      · rw [if_pos heq] at hmem
        rcases List.mem_cons.mp hmem with rfl | hrest
        · exact Or.inr (Or.inl ⟨first.2, by simp [← heq], by rw [heq]⟩)
        · have hother : entry.1 ≠ key := by
            intro hkey
            exact h.1 (heq.trans hkey.symm ▸ List.mem_map_of_mem hrest)
          exact Or.inl ⟨hother, List.mem_cons_of_mem first hrest⟩
      · rw [if_neg heq] at hmem
        rcases List.mem_cons.mp hmem with rfl | hrest
        · exact Or.inl ⟨heq, List.mem_cons_self⟩
        · rcases ih h.2 hrest with ⟨hother, hin⟩ | ⟨b, hin, hentry⟩ | ⟨hnew, hentry⟩
          · exact Or.inl ⟨hother, List.mem_cons_of_mem first hin⟩
          · exact Or.inr (Or.inl ⟨b, List.mem_cons_of_mem first hin, hentry⟩)
          · refine Or.inr (Or.inr ⟨?_, hentry⟩)
            rw [List.map_cons, List.mem_cons]
            exact not_or.mpr ⟨fun hkey => heq hkey.symm, hnew⟩

end Update

section Fold

variable {keyOf : α → κ} {fresh : α → β} {f : α → β → β}

theorem groupFold_append_singleton (rows : List α) (row : α) :
    groupFold keyOf fresh f (rows ++ [row]) =
      updateKey (keyOf row) (fresh row) (f row) (groupFold keyOf fresh f rows) := by
  rw [groupFold, List.foldl_append]
  rfl

/-- The keys are those of the rows. -/
theorem mem_keys_groupFold {rows : List α} {k : κ} :
    k ∈ (groupFold keyOf fresh f rows).map Prod.fst ↔ ∃ row ∈ rows, keyOf row = k := by
  induction rows using List.reverseRecOn with
  | nil => simp [groupFold]
  | append_singleton rows row ih =>
      rw [groupFold_append_singleton, mem_keys_updateKey, ih]
      simp only [List.mem_append, List.mem_singleton, or_and_right, exists_or, exists_eq_left]
      rw [or_comm, eq_comm]

theorem nodup_keys_groupFold {rows : List α} :
    ((groupFold keyOf fresh f rows).map Prod.fst).Nodup := by
  induction rows using List.reverseRecOn with
  | nil => exact List.nodup_nil
  | append_singleton rows row ih =>
      rw [groupFold_append_singleton]
      exact nodup_keys_updateKey ih

/-- **What the entries are**: true of an opened entry, kept by an update, and
not touched by the rows of other keys. -/
theorem groupFold_induction {P : List α → κ → β → Prop}
    (opened : ∀ rows row, (∀ r ∈ rows, keyOf r ≠ keyOf row) →
      P (rows ++ [row]) (keyOf row) (f row (fresh row)))
    (updated : ∀ rows row b, P rows (keyOf row) b → P (rows ++ [row]) (keyOf row) (f row b))
    (others : ∀ rows row k b, k ≠ keyOf row → P rows k b → P (rows ++ [row]) k b)
    {rows : List α} {entry : κ × β} (h : entry ∈ groupFold keyOf fresh f rows) :
    P rows entry.1 entry.2 := by
  induction rows using List.reverseRecOn generalizing entry with
  | nil => exact absurd h List.not_mem_nil
  | append_singleton rows row ih =>
      rw [groupFold_append_singleton] at h
      rcases mem_updateKey nodup_keys_groupFold h with ⟨hother, hin⟩ | ⟨b, hin, rfl⟩ | ⟨hnew, rfl⟩
      · exact others rows row entry.1 entry.2 hother (ih hin)
      · exact updated rows row b (ih hin)
      · apply opened rows row
        intro r hr hkey
        exact hnew (mem_keys_groupFold.mpr ⟨r, hr, hkey⟩)

end Fold

section Sums

variable {M : Type} [AddCommMonoid M] {m : β → M}

/-- An update adds to the sum over the entries what it adds to its own. -/
theorem sum_updateKey {key : κ} {fresh : β} {f : β → β} {added : M} (hfresh : m fresh = 0)
    (hf : ∀ b, m (f b) = m b + added) (d : List (κ × β)) :
    ((updateKey key fresh f d).map fun entry => m entry.2).sum =
      (d.map fun entry => m entry.2).sum + added := by
  induction d with
  | nil => simp [updateKey, hf, hfresh]
  | cons entry rest ih =>
      unfold updateKey
      by_cases heq : entry.1 = key
      · rw [if_pos heq, List.map_cons, List.sum_cons, List.map_cons, List.sum_cons, hf,
          add_right_comm]
      · rw [if_neg heq, List.map_cons, List.sum_cons, List.map_cons, List.sum_cons, ih, add_assoc]

/-- **The groups of a report add up to its rows.** -/
theorem sum_groupFold {keyOf : α → κ} {fresh : α → β} {f : α → β → β} {added : α → M}
    (hfresh : ∀ row, m (fresh row) = 0)
    (hf : ∀ row b, m (f row b) = m b + added row) (rows : List α) :
    ((groupFold keyOf fresh f rows).map fun entry => m entry.2).sum =
      (rows.map added).sum := by
  induction rows using List.reverseRecOn with
  | nil => rfl
  | append_singleton rows row ih =>
      rw [groupFold_append_singleton, sum_updateKey (hfresh row) (hf row), ih, List.map_append,
        List.sum_append, List.map_singleton, List.sum_singleton]

end Sums

/-- How often each element occurs, in the order of the first occurrences. -/
def tally (elements : List κ) : List (κ × ℕ) :=
  groupFold id (fun _ => 0) (fun _ n => n + 1) elements

/-- **A tally counts.** -/
theorem mem_tally {elements : List κ} {k : κ} {n : ℕ} :
    (k, n) ∈ tally elements ↔ 0 < n ∧ n = elements.count k := by
  have hcount : ∀ entry ∈ tally elements, entry.2 = elements.count entry.1 := by
    intro entry hentry
    refine groupFold_induction (P := fun elements k n => n = elements.count k) ?_ ?_ ?_ hentry
    · intro rows row hnew
      have hzero : rows.count row = 0 := List.count_eq_zero.mpr fun hmem => hnew row hmem rfl
      simp [hzero]
    · intro rows row n hn
      simp [hn]
    · intro rows row k n hother hn
      rw [hn, List.count_append, List.count_singleton, if_neg (by simpa using Ne.symm hother)]
      rfl
  have hkeys : k ∈ (tally elements).map Prod.fst ↔ k ∈ elements := by
    rw [tally, mem_keys_groupFold]
    simp
  constructor
  · intro h
    have hmem : k ∈ elements := hkeys.mp (List.mem_map_of_mem h)
    have hn : n = elements.count k := hcount (k, n) h
    exact ⟨by rw [hn]; exact List.count_pos_iff.mpr hmem, hn⟩
  · intro ⟨hpos, hn⟩
    rw [hn] at hpos
    have hmem : k ∈ elements := List.count_pos_iff.mp hpos
    obtain ⟨entry, hentry, hkey⟩ := List.mem_map.mp (hkeys.mpr hmem)
    have hvalue := hcount entry hentry
    rw [hkey, ← hn] at hvalue
    rwa [← hkey, ← hvalue]

end Nebularr
