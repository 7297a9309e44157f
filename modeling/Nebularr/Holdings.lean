import Mathlib.Data.List.Nodup

/-!
# Exclusive holdings

Several agents each hold a list of resources.  Holdings are exclusive when no
resource is held twice, by one agent or by two.  Giving resources back keeps
them exclusive; taking some does as long as nobody holds them.
-/

section Holdings

variable {ι κ : Type}

/-- No resource is held twice. -/
structure Exclusive (held : ι → List κ) : Prop where
  nodup : ∀ i, (held i).Nodup
  unique : ∀ i j x, x ∈ held i → x ∈ held j → i = j

namespace Exclusive

variable {held held' : ι → List κ}

theorem empty : Exclusive fun _ : ι => ([] : List κ) :=
  ⟨fun _ => List.nodup_nil, fun _ _ _ h => (nomatch h)⟩

/-- What an agent holds first, nobody holds again. -/
theorem head_apart (h : Exclusive held) {i : ι} {x : κ} {rest : List κ}
    (hheld : held i = x :: rest) :
    x ∉ rest ∧ ∀ j, j ≠ i → x ∉ held j := by
  have hnodup := h.nodup i
  rw [hheld, List.nodup_cons] at hnodup
  refine ⟨hnodup.1, fun j hj hx => ?_⟩
  exact hj (h.unique j i x hx (hheld ▸ List.mem_cons_self))

/-- Giving back. -/
theorem shrink (h : Exclusive held) (hsub : ∀ i, (held' i).Sublist (held i)) :
    Exclusive held' := by
  refine ⟨fun i => (h.nodup i).sublist (hsub i), ?_⟩
  intro i j x hi hj
  exact h.unique i j x ((hsub i).subset hi) ((hsub j).subset hj)

/-- Taking what nobody holds. -/
theorem take (h : Exclusive held) (i : ι) (hothers : ∀ j, j ≠ i → (held' j).Sublist (held j))
    (hnodup : (held' i).Nodup) (hfree : ∀ x ∈ held' i, ∀ j, x ∉ held j) : Exclusive held' := by
  constructor
  · intro j
    by_cases hj : j = i
    · subst hj
      exact hnodup
    · exact (h.nodup j).sublist (hothers j hj)
  · intro j k x hj hk
    by_cases hji : j = i
    · subst hji
      by_cases hki : k = j
      · exact hki.symm
      · exact absurd ((hothers k hki).subset hk) (hfree x hj k)
    · have hheld := (hothers j hji).subset hj
      by_cases hki : k = i
      · subst hki
        exact absurd hheld (hfree x hk j)
      · exact h.unique j k x hheld ((hothers k hki).subset hk)

end Exclusive

end Holdings
