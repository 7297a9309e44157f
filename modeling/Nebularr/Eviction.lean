import Mathlib.Algebra.BigOperators.Group.List.Basic
import Mathlib.Algebra.Order.Ring.Nat

/-!
# Evicting until the rest fits

A loop over things of a size in a fixed order: as long as the total is above a
limit the next one goes.  What goes is a front part of the order, what stays
fits, and nothing goes once it does.
-/

namespace Nebularr

variable {α : Type} (size : α → ℕ) (limit : ℕ)

/-- The sizes together. -/
def totalSize (l : List α) : ℕ := (l.map size).sum

/-- What goes, with a running total. -/
def evictUntil : ℕ → List α → List α
  | _, [] => []
  | total, a :: rest => if total ≤ limit then [] else a :: evictUntil (total - size a) rest

variable {size limit} {l : List α} {a : α}

@[simp] theorem totalSize_nil : totalSize size ([] : List α) = 0 := rfl

@[simp] theorem totalSize_cons : totalSize size (a :: l) = size a + totalSize size l := by
  simp [totalSize]

theorem totalSize_perm {l' : List α} (h : l.Perm l') : totalSize size l = totalSize size l' :=
  (h.map size).sum_eq

variable (size limit) in
/-- **What goes.** -/
theorem evictUntil_eq_take (l : List α) :
    ∃ n, evictUntil size limit (totalSize size l) l = l.take n ∧
      totalSize size (l.drop n) ≤ limit ∧ ∀ m < n, limit < totalSize size (l.drop m) := by
  induction l with
  | nil => exact ⟨0, rfl, Nat.zero_le limit, fun m hm => absurd hm (Nat.not_lt_zero m)⟩
  | cons a rest ih =>
      unfold evictUntil
      by_cases hfits : totalSize size (a :: rest) ≤ limit
      · rw [if_pos hfits]
        exact ⟨0, rfl, hfits, fun m hm => absurd hm (Nat.not_lt_zero m)⟩
      · rw [if_neg hfits, totalSize_cons, Nat.add_sub_cancel_left]
        obtain ⟨n, hgone, hrest, hbefore⟩ := ih
        refine ⟨n + 1, by rw [hgone, List.take_succ_cons], hrest, fun m hm => ?_⟩
        cases m with
        | zero => exact Nat.lt_of_not_le hfits
        | succ m => exact hbefore m (Nat.lt_of_succ_lt_succ hm)

/-- **Who goes**: one that does not fit together with what comes after it. -/
theorem mem_evictUntil_iff {before after : List α} (h : (before ++ a :: after).Nodup) :
    a ∈ evictUntil size limit (totalSize size (before ++ a :: after)) (before ++ a :: after) ↔
      limit < totalSize size (a :: after) := by
  induction before with
  | nil =>
      rw [List.nil_append, evictUntil]
      by_cases hfits : totalSize size (a :: after) ≤ limit
      · rw [if_pos hfits]
        exact ⟨fun hmem => absurd hmem List.not_mem_nil, fun hlarge =>
          absurd hfits (Nat.not_le.mpr hlarge)⟩
      · rw [if_neg hfits]
        exact ⟨fun _ => Nat.lt_of_not_le hfits, fun _ => List.mem_cons_self⟩
  | cons b before ih =>
      rw [List.cons_append, List.nodup_cons] at h
      have hne : a ≠ b := fun heq => h.1 (heq ▸ List.mem_append_right _ List.mem_cons_self)
      rw [List.cons_append, evictUntil]
      by_cases hfits : totalSize size (b :: (before ++ a :: after)) ≤ limit
      · have hsmall : totalSize size (a :: after) ≤ limit := by
          simp only [totalSize, List.map_cons, List.map_append, List.sum_cons,
            List.sum_append] at hfits ⊢
          omega
        rw [if_pos hfits]
        exact ⟨fun hmem => absurd hmem List.not_mem_nil, fun hlarge =>
          absurd hsmall (Nat.not_le.mpr hlarge)⟩
      · rw [if_neg hfits, totalSize_cons, Nat.add_sub_cancel_left, List.mem_cons, ← ih h.2]
        exact or_iff_right hne

end Nebularr
