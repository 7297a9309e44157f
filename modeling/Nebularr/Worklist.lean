import Mathlib.Data.Nat.Notation
import Mathlib.Logic.Function.Iterate
import Mathlib.Order.Lattice
import Mathlib.Tactic.Common

/-!
# Working off a list from its head

Keys in ascending order, of which a round takes the first `b` and drops those
that it is done with; the others stay where they are.  How many are left depends
on how many rounds met a failure (`length_workRounds_le`).  Whether the turn of a
key ever comes depends on how many keys that keep failing stand before it
(`reached_iff`): fewer than a round takes, or never.
-/

section Worklist

variable {κ : Type}

/-- A round over the first `b` keys. -/
def workRound (b : ℕ) (fails : κ → Bool) (keys : List κ) : List κ :=
  (keys.take b).filter fails ++ keys.drop b

/-- Round after round, each with its own failures. -/
def workRounds (b : ℕ) (rounds : List (κ → Bool)) (keys : List κ) : List κ :=
  rounds.foldl (fun keys fails => workRound b fails keys) keys

/-- How many of the rounds meet a failure. -/
def spoiledRounds (b : ℕ) : List (κ → Bool) → List κ → ℕ
  | [], _ => 0
  | fails :: rest, keys =>
      ((keys.take b).any fails).toNat + spoiledRounds b rest (workRound b fails keys)

variable {b : ℕ} {fails : κ → Bool} {keys : List κ} {k : κ} {rounds : List (κ → Bool)}

theorem workRound_sublist : (workRound b fails keys).Sublist keys := by
  have hparts : ((keys.take b).filter fails ++ keys.drop b).Sublist (keys.take b ++ keys.drop b) :=
    List.filter_sublist.append (List.Sublist.refl _)
  rwa [List.take_append_drop] at hparts

/-- What a round leaves. -/
theorem mem_workRound_iff (hkeys : keys.Nodup) :
    k ∈ workRound b fails keys ↔ k ∈ keys ∧ (k ∈ keys.take b → fails k = true) := by
  have hsplit : k ∈ keys ↔ k ∈ keys.take b ∨ k ∈ keys.drop b := by
    rw [← List.mem_append, List.take_append_drop]
  rw [← List.take_append_drop b keys] at hkeys
  have hapart : k ∈ keys.drop b → k ∉ keys.take b := fun hdrop htake =>
    (List.nodup_append.mp hkeys).2.2 k htake k hdrop rfl
  rw [workRound, List.mem_append, List.mem_filter, hsplit]
  constructor
  · rintro (⟨htake, hfails⟩ | hdrop)
    · exact ⟨Or.inl htake, fun _ => hfails⟩
    · exact ⟨Or.inr hdrop, fun htake => absurd htake (hapart hdrop)⟩
  · rintro ⟨htake | hdrop, hfails⟩
    · exact Or.inl ⟨htake, hfails htake⟩
    · exact Or.inr hdrop

/-! ## How many are left -/

theorem length_workRound_le : (workRound b fails keys).length ≤ keys.length :=
  workRound_sublist.length_le

/-- A round without failures. -/
theorem workRound_of_clean (h : (keys.take b).any fails = false) :
    workRound b fails keys = keys.drop b := by
  have hnone : (keys.take b).filter fails = [] := by
    rw [List.filter_eq_nil_iff]
    rw [List.any_eq_false] at h
    exact h
  rw [workRound, hnone, List.nil_append]

/-- With no keys left, no round has anything to do. -/
theorem workRounds_nil : workRounds b rounds ([] : List κ) = [] := by
  induction rounds with
  | nil => rfl
  | cons fails rest ih => simpa [workRounds, workRound] using ih

theorem spoiledRounds_le : spoiledRounds b rounds keys ≤ rounds.length := by
  induction rounds generalizing keys with
  | nil => exact Nat.le_refl 0
  | cons fails rest ih =>
      have hrest : spoiledRounds b rest (workRound b fails keys) ≤ rest.length := ih
      have hone : ((keys.take b).any fails).toNat ≤ 1 := Bool.toNat_le _
      rw [spoiledRounds, List.length_cons]
      omega

/-- **What rounds leave.**  Every round that meets no failure takes off `b`. -/
theorem length_workRounds_le :
    (workRounds b rounds keys).length ≤
      keys.length - b * (rounds.length - spoiledRounds b rounds keys) := by
  induction rounds generalizing keys with
  | nil => simp [workRounds]
  | cons fails rest ih =>
      have hrest : (workRounds b (fails :: rest) keys).length ≤ (workRound b fails keys).length -
          b * (rest.length - spoiledRounds b rest (workRound b fails keys)) := ih
      have hspoiled : spoiledRounds b rest (workRound b fails keys) ≤ rest.length :=
        spoiledRounds_le
      rw [spoiledRounds, List.length_cons]
      cases hclean : (keys.take b).any fails with
      | true =>
          have hsame : rest.length +
              1 - (Bool.toNat true + spoiledRounds b rest (workRound b fails keys)) =
              rest.length - spoiledRounds b rest (workRound b fails keys) := by
            rw [Bool.toNat_true]
            omega
          rw [hsame]
          exact Nat.le_trans hrest (Nat.sub_le_sub_right length_workRound_le _)
      | false =>
          have hmore : rest.length +
              1 - (Bool.toNat false + spoiledRounds b rest (workRound b fails keys)) =
              rest.length - spoiledRounds b rest (workRound b fails keys) + 1 := by
            rw [Bool.toNat_false]
            omega
          rw [hmore, Nat.mul_succ, Nat.add_comm, ← Nat.sub_sub]
          rwa [workRound_of_clean hclean, List.length_drop, ← workRound_of_clean hclean] at hrest

/-- What is gone does not come back. -/
theorem notMem_iterate_of_le {m n : ℕ} (hle : m ≤ n) (h : k ∉ (workRound b fails)^[m] keys) :
    k ∉ (workRound b fails)^[n] keys := by
  obtain ⟨more, rfl⟩ := Nat.exists_eq_add_of_le' hle
  rw [Function.iterate_add_apply]
  generalize (workRound b fails)^[m] keys = left at h
  induction more generalizing left with
  | zero => exact h
  | succ more ih =>
      rw [Function.iterate_succ_apply]
      exact ih (Nat.le_add_left m more) _ fun hmem => h (workRound_sublist.subset hmem)

theorem workRounds_of_forall_eq (h : ∀ round ∈ rounds, round = fails) :
    workRounds b rounds keys = (workRound b fails)^[rounds.length] keys := by
  induction rounds generalizing keys with
  | nil => rfl
  | cons first rest ih =>
      obtain ⟨rfl, hrest⟩ := List.forall_mem_cons.mp h
      exact ih hrest

/-! ## Whose turn comes -/

variable [LinearOrder κ]

/-- A key is among the first `b` if fewer than `b` stand before it. -/
theorem mem_take_iff_countP (hkeys : keys.Pairwise (· < ·)) (hk : k ∈ keys) :
    k ∈ keys.take b ↔ keys.countP (fun j => decide (j < k)) < b := by
  induction keys generalizing b with
  | nil => cases hk
  | cons first rest ih =>
      obtain ⟨hfirst, hrest⟩ := List.pairwise_cons.mp hkeys
      cases b with
      | zero => simp
      | succ b =>
          rw [List.take_succ_cons, List.mem_cons]
          obtain rfl | hlater := List.mem_cons.mp hk
          · have hnone : (k :: rest).countP (fun j => decide (j < k)) = 0 := by
              rw [List.countP_eq_zero]
              intro j hj
              obtain rfl | hj := List.mem_cons.mp hj
              · simp
              · simpa using (hfirst j hj).le
            simp [hnone]
          · have hless : first < k := hfirst k hlater
            rw [List.countP_cons_of_pos (by simpa using hless), Nat.succ_lt_succ_iff,
              ← ih hrest hlater]
            exact or_iff_right hless.ne'

/-- The keys that fail stay, and with them what stands before a key for good. -/
theorem countP_fails_workRound :
    (workRound b fails keys).countP (fun j => fails j && decide (j < k)) =
      keys.countP fun j => fails j && decide (j < k) := by
  have hfilter : ((keys.take b).filter fails).countP (fun j => fails j && decide (j < k)) =
      (keys.take b).countP fun j => fails j && decide (j < k) := by
    rw [List.countP_filter]
    apply List.countP_congr
    intro j _
    cases fails j <;> simp
  rw [workRound, List.countP_append, hfilter, ← List.countP_append, List.take_append_drop]

omit [LinearOrder κ] in
theorem mem_workRound_of_notMem_take (hk : k ∈ keys) (h : k ∉ keys.take b) :
    k ∈ workRound b fails keys := by
  rw [← List.take_append_drop b keys, List.mem_append] at hk
  exact List.mem_append_right _ (hk.resolve_left h)

/-- Behind too many failures, a key stays for ever. -/
theorem mem_iterate_workRound (hkeys : keys.Pairwise (· < ·)) (hk : k ∈ keys)
    (hblocked : b ≤ keys.countP fun j => fails j && decide (j < k)) (n : ℕ) :
    k ∈ (workRound b fails)^[n] keys := by
  induction n generalizing keys with
  | zero => exact hk
  | succ n ih =>
      rw [Function.iterate_succ_apply]
      have hbefore : keys.countP (fun j => fails j && decide (j < k)) ≤ keys.countP fun j =>
          decide (j < k) :=
        List.countP_mono_left fun j _ h => (Bool.and_eq_true_iff.mp h).2
      have hnot : k ∉ keys.take b := by
        rw [mem_take_iff_countP hkeys hk]
        omega
      have hstays : b ≤ (workRound b fails keys).countP fun j => fails j && decide (j < k) := by
        rw [countP_fails_workRound]
        exact hblocked
      exact ih (hkeys.sublist workRound_sublist) (mem_workRound_of_notMem_take hk hnot) hstays

/-- A round that does not come to a key takes off some key before it. -/
theorem countP_workRound_lt (hkeys : keys.Pairwise (· < ·)) (hk : k ∈ keys) (hnot : k ∉ keys.take b)
    (hfew : (keys.countP fun j => fails j && decide (j < k)) < b) :
    (workRound b fails keys).countP (fun j => decide (j < k)) < keys.countP fun j =>
      decide (j < k) := by
  have hdrop : k ∈ keys.drop b := by
    rw [← List.take_append_drop b keys, List.mem_append] at hk
    exact hk.resolve_left hnot
  have hbefore : ∀ j ∈ keys.take b, j < k := by
    intro j hj
    rw [← List.take_append_drop b keys] at hkeys
    exact (List.pairwise_append.mp hkeys).2.2 j hj k hdrop
  have hall : (keys.take b).countP (fun j => decide (j < k)) = b := by
    rw [List.countP_eq_length.mpr fun j hj => decide_eq_true (hbefore j hj), List.length_take]
    have hlength := List.length_pos_of_mem hdrop
    rw [List.length_drop] at hlength
    omega
  have hkept : ((keys.take b).filter fails).countP (fun j => decide (j < k)) < b := by
    have hsub := (List.take_sublist b keys).countP_le (p := fun j => fails j && decide (j < k))
    rw [List.countP_filter]
    refine Nat.lt_of_le_of_lt (Nat.le_of_eq ?_) (Nat.lt_of_le_of_lt hsub hfew)
    exact List.countP_congr fun j _ => by rw [Bool.and_comm]
  have hsplit : keys.countP (fun j => decide (j < k)) =
      (keys.take b).countP (fun j => decide (j < k)) + (keys.drop b).countP fun j =>
        decide (j < k) := by
    rw [← List.countP_append, List.take_append_drop]
  rw [workRound, List.countP_append, hsplit, hall]
  exact Nat.add_lt_add_right hkept _

/-- Behind fewer failures, the turn of a key comes. -/
theorem exists_notMem_iterate (hkeys : keys.Pairwise (· < ·)) (hk : k ∈ keys)
    (hdone : fails k = false)
    (hfew : (keys.countP fun j => fails j && decide (j < k)) < b) :
    ∃ n ≤ (keys.countP fun j => decide (j < k)) + 1, k ∉ (workRound b fails)^[n] keys := by
  generalize hbefore : (keys.countP fun j => decide (j < k)) = before
  induction before using Nat.strongRecOn generalizing keys with
  | ind before ih =>
      have hsorted : (workRound b fails keys).Pairwise (· < ·) := hkeys.sublist workRound_sublist
      by_cases hturn : k ∈ keys.take b
      · refine ⟨1, Nat.le_add_left 1 before, fun hmem => ?_⟩
        obtain hkept | hlater := List.mem_append.mp hmem
        · rw [List.mem_filter, hdone] at hkept
          cases hkept.2
        · rw [← List.take_append_drop b keys] at hkeys
          exact absurd ((List.pairwise_append.mp hkeys).2.2 k hturn k hlater) (lt_irrefl k)
      · have hless := countP_workRound_lt hkeys hk hturn hfew
        have hstill : ((workRound b fails keys).countP fun j => fails j && decide (j < k)) < b := by
          rw [countP_fails_workRound]
          exact hfew
        obtain ⟨n, hn, hgone⟩ :=
          ih _ (hbefore ▸ hless) hsorted (mem_workRound_of_notMem_take hk hturn)
          hstill rfl
        refine ⟨n + 1, by omega, ?_⟩
        rwa [Function.iterate_succ_apply]

/-- **Whose turn comes.**  Under failures that stay the same, a key that does
not fail is dealt with if and only if fewer than `b` failing keys stand before
it. -/
theorem reached_iff (hkeys : keys.Pairwise (· < ·)) (hk : k ∈ keys) (hdone : fails k = false) :
    (∃ n, k ∉ (workRound b fails)^[n] keys) ↔
      (keys.countP fun j => fails j && decide (j < k)) < b := by
  constructor
  · rintro ⟨n, hn⟩
    by_contra hblocked
    exact hn (mem_iterate_workRound hkeys hk (Nat.not_lt.mp hblocked) n)
  · intro hfew
    obtain ⟨n, -, hn⟩ := exists_notMem_iterate hkeys hk hdone hfew
    exact ⟨n, hn⟩

end Worklist
