import Mathlib.Tactic.Common

/-!
# Writes against a snapshot

Several writers share a flag.  Each has a wish, compares it with the flag as it
was before the first of them, and writes it where the two differ.  So a writer
does not see what the others have done, and one that finds its wish in the
snapshot leaves the flag to them.

The flag they leave is `settle`: the common wish where they agree, and else the
opposite of what it was, since only the writers that differ from it write.
-/

/-- One writer. -/
def writeWish (snapshot wish flag : Bool) : Bool := if wish = snapshot then flag else wish

/-- What the writers leave of a flag. -/
def settle (snapshot : Bool) (wishes : List Bool) : Bool :=
  wishes.foldl (fun flag wish => writeWish snapshot wish flag) snapshot

section Settle

variable {snapshot : Bool} {wishes : List Bool}

@[simp] theorem settle_nil : settle snapshot [] = snapshot := rfl

/-- From any flag on, a writer with another wish than the snapshot decides. -/
theorem foldl_writeWish (wishes : List Bool) (flag : Bool) :
    wishes.foldl (fun flag wish => writeWish snapshot wish flag) flag =
      if (!snapshot) ∈ wishes then !snapshot else flag := by
  induction wishes generalizing flag with
  | nil => simp
  | cons wish rest ih =>
      rw [List.foldl_cons, ih]
      by_cases hrest : (!snapshot) ∈ rest
      · simp [hrest]
      · by_cases hwish : wish = snapshot
        · simp [hrest, hwish, writeWish]
        · obtain rfl : wish = !snapshot := Bool.eq_not_of_ne hwish
          simp [hrest, writeWish]

/-- **The flag changes exactly when somebody wishes it.** -/
theorem settle_eq : settle snapshot wishes = if (!snapshot) ∈ wishes then !snapshot else snapshot :=
  foldl_writeWish wishes snapshot

/-- Wishes that are all granted leave their value. -/
theorem settle_of_forall {value : Bool} (hne : wishes ≠ []) (h : ∀ wish ∈ wishes, wish = value) :
    settle snapshot wishes = value := by
  obtain ⟨wish, hmem⟩ := List.exists_mem_of_ne_nil wishes hne
  have hvalue := h wish hmem
  rw [settle_eq]
  by_cases hsame : value = snapshot
  · have hnone : (!snapshot) ∉ wishes := by
      intro hcontra
      have hbad := h _ hcontra
      rw [hsame] at hbad
      cases snapshot <;> cases hbad
    rw [if_neg hnone, hsame]
  · obtain rfl : value = !snapshot := Bool.eq_not_of_ne hsame
    rw [if_pos (hvalue ▸ hmem)]

end Settle
