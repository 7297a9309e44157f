import Mathlib.Algebra.BigOperators.Group.List.Basic
import Mathlib.Algebra.Order.Ring.Nat
import Nebularr.ThreeValued

/-!
# Sums over a join

A report that sums a weight over the rows of a join counts each right row as
often as it is joined (`sumJoin_eq`).  So it is the sum over the right rows
that are joined at all exactly where none of them is joined twice
(`sumJoin_eq_sumWhere_iff`).  And two reports that select different rows agree
exactly where what only the one selects weighs as much as what only the other
does (`sumWhere_eq_iff`, `sumJoin_eq_add_iff`).
-/

section Sums

variable {α β M : Type} [AddCommMonoid M]

/-- The weight of the rows that pass. -/
def sumWhere (p : β → Bool) (weight : β → M) (rows : List β) : M :=
  ((rows.filter p).map weight).sum

/-- The weight of the rows of an inner join, each with the weight of its right
row. -/
def sumJoin (on : α → β → Bool) (weight : β → M) (left : List α) (right : List β) : M :=
  (left.map fun a => sumWhere (on a) weight right).sum

variable {p q : β → Bool} {on : α → β → Bool} {weight : β → M} {left : List α} {rows right : List β}

/-- Without rows the sum is 0. -/
@[simp] theorem sumWhere_nil : sumWhere p weight [] = 0 := rfl

/-- The first row adds its weight if it is selected. -/
theorem sumWhere_cons (b : β) :
    sumWhere p weight (b :: rows) = (if p b then weight b else 0) + sumWhere p weight rows := by
  by_cases hb : p b = true
  · simp [sumWhere, hb]
  · simp [sumWhere, hb]

/-- What passes a test passes it with or without another. -/
theorem sumWhere_split (p q : β → Bool) :
    sumWhere p weight rows =
      sumWhere (fun b => p b && q b) weight rows + sumWhere (fun b => p b && !q b) weight rows := by
  induction rows with
  | nil => simp
  | cons b rest ih =>
      rw [sumWhere_cons, sumWhere_cons, sumWhere_cons, ih, add_add_add_comm]
      congr 1
      cases p b <;> cases q b <;> simp

/-- Two conditions that agree on the rows select one sum. -/
theorem sumWhere_congr (h : ∀ b ∈ rows, p b = q b) :
    sumWhere p weight rows = sumWhere q weight rows := by
  rw [sumWhere, sumWhere, List.filter_congr h]

/-- A test may be made by the weight. -/
theorem sumWhere_eq_sum :
    sumWhere p weight rows = (rows.map fun b => if p b then weight b else 0).sum := by
  induction rows with
  | nil => rfl
  | cons b rest ih => rw [sumWhere_cons, List.map_cons, List.sum_cons, ih]

/-- A second condition can be taken into the weight. -/
theorem sumWhere_and (p q : β → Bool) (weight : β → M) (rows : List β) :
    sumWhere (fun b => p b && q b) weight rows =
      sumWhere q (fun b => if p b then weight b else 0) rows := by
  induction rows with
  | nil => rfl
  | cons b rest ih =>
      rw [sumWhere_cons, sumWhere_cons, ih]
      cases p b <;> cases q b <;> rfl

/-- The sum over joined lists is the sum of their sums. -/
theorem sum_flatMap (left : List α) (f : α → List β) (weight : β → M) :
    ((left.flatMap f).map weight).sum = (left.map fun a => ((f a).map weight).sum).sum := by
  induction left with
  | nil => rfl
  | cons a rest ih =>
      rw [List.flatMap_cons, List.map_append, List.sum_append, ih, List.map_cons, List.sum_cons]

/-- A left row without a match is joined with nothing. -/
theorem sum_leftJoin {c : Option β → M} {cond : β → Truth} :
    ((leftJoin rows cond).map c).sum =
      sumWhere (fun b => decide (cond b).Holds) (fun b => c (some b)) rows +
        if rows.any fun b => decide (cond b).Holds then 0 else c none := by
  unfold leftJoin sumWhere
  by_cases hmatch : (rows.any fun b => decide (cond b).Holds) = true
  · rw [if_pos hmatch, if_pos hmatch, List.map_map, add_zero]
    rfl
  · have hnone : (rows.filter fun b => decide (cond b).Holds) = [] := by
      rw [List.filter_eq_nil_iff]
      intro b hb hon
      exact hmatch (List.any_eq_true.mpr ⟨b, hb, hon⟩)
    rw [if_neg hmatch, if_neg hmatch, hnone, List.map_singleton, List.sum_singleton, List.map_nil,
      List.sum_nil, zero_add]

/-- **Each right row counts as often as it is joined.** -/
theorem sumJoin_eq :
    sumJoin on weight left right = (right.map fun b => left.countP (on · b) • weight b).sum := by
  induction left with
  | nil => simp [sumJoin]
  | cons a rest ih =>
      have hstep : sumJoin on weight (a :: rest) right =
          sumWhere (on a) weight right + sumJoin on weight rest right := by
        rw [sumJoin, List.map_cons, List.sum_cons, sumJoin]
      rw [hstep, ih]
      clear hstep ih
      induction right with
      | nil => simp
      | cons b more ih =>
          rw [sumWhere_cons, List.map_cons, List.map_cons, List.sum_cons, List.sum_cons, ← ih,
            List.countP_cons, add_nsmul, add_add_add_comm]
          congr 1
          cases on a b with
          | false => simp
          | true =>
              rw [if_pos rfl, if_pos rfl, one_nsmul, add_comm]

/-- A second join condition splits the sum. -/
theorem sumJoin_split (on on' : α → β → Bool) :
    sumJoin on weight left right =
      sumJoin (fun a b => on a b && on' a b) weight left right +
        sumJoin (fun a b => on a b && !on' a b) weight left right := by
  induction left with
  | nil => simp [sumJoin]
  | cons a rest ih =>
      simp only [sumJoin, List.map_cons, List.sum_cons] at ih ⊢
      rw [ih, sumWhere_split (on a) (on' a), add_add_add_comm]

/-- A test of the right row may be made by the weight. -/
theorem sumJoin_and (q : β → Bool) :
    sumJoin (fun a b => q b && on a b) weight left right =
      sumJoin on (fun b => if q b then weight b else 0) left right := by
  unfold sumJoin
  congr 1
  refine List.map_congr_left fun a _ => ?_
  exact sumWhere_and q (on a) weight right

/-- A row on the right counts once for each on the left that it joins. -/
theorem sumJoin_cons_right (b : β) :
    sumJoin on weight left (b :: right) =
      left.countP (on · b) • weight b + sumJoin on weight left right := by
  rw [sumJoin_eq, sumJoin_eq, List.map_cons, List.sum_cons]

/-- Without rows on the right the sum is 0. -/
@[simp] theorem sumJoin_nil_right : sumJoin on weight left [] = 0 := by
  rw [sumJoin_eq]
  rfl

/-- Without a row joined twice the join selects right rows. -/
theorem sumJoin_of_once (h : ∀ b ∈ right, weight b ≠ 0 → left.countP (on · b) ≤ 1) :
    sumJoin on weight left right =
      sumWhere (fun b => decide (0 < left.countP (on · b))) weight right := by
  induction right with
  | nil => simp
  | cons b rest ih =>
      rw [sumJoin_cons_right, sumWhere_cons, ih fun c hc => h c (List.mem_cons_of_mem b hc)]
      congr 1
      by_cases hzero : weight b = 0
      · simp [hzero]
      · have honce := h b List.mem_cons_self hzero
        rcases Nat.le_one_iff_eq_zero_or_eq_one.mp honce with hnone | hone
        · simp [hnone]
        · rw [hone, one_nsmul]
          rfl

end Sums

section Counts

variable {α β : Type} {on : α → β → Bool} {weight : β → ℕ} {left : List α} {right : List β}

/-- Rows of weight one are counted. -/
theorem length_filter_eq_sumWhere (p : β → Bool) (rows : List β) :
    (rows.filter p).length = sumWhere p (fun _ => 1) rows := by
  rw [sumWhere, List.map_const', List.sum_replicate, Nat.nsmul_eq_mul, Nat.mul_one]

/-- Counting a row once counts no more than counting every match. -/
theorem ite_pos_le_mul (n k : ℕ) : (if decide (0 < n) then k else 0) ≤ n * k := by
  by_cases hpos : 0 < n
  · simpa [hpos] using Nat.le_mul_of_pos_left k hpos
  · simp [hpos]

/-- What is joined at all is counted once at least. -/
theorem sumWhere_le_sumJoin :
    sumWhere (fun b => decide (0 < left.countP (on · b))) weight right ≤
      sumJoin on weight left right := by
  induction right with
  | nil => simp
  | cons b rest ih =>
      rw [sumJoin_cons_right, sumWhere_cons, Nat.nsmul_eq_mul]
      exact Nat.add_le_add (ite_pos_le_mul _ _) ih

/-- **A join counts right rows exactly where it joins none of them twice.** -/
theorem sumJoin_eq_sumWhere_iff :
    sumJoin on weight left right =
        sumWhere (fun b => decide (0 < left.countP (on · b))) weight right ↔
      ∀ b ∈ right, weight b ≠ 0 → left.countP (on · b) ≤ 1 := by
  constructor
  · intro hsame
    induction right with
    | nil => exact fun b hb => absurd hb List.not_mem_nil
    | cons b rest ih =>
        rw [sumJoin_cons_right, sumWhere_cons, Nat.nsmul_eq_mul] at hsame
        have hhead := ite_pos_le_mul (left.countP (on · b)) (weight b)
        have hrest : sumWhere (fun c => decide (0 < left.countP (on · c))) weight rest ≤
            sumJoin on weight left rest := sumWhere_le_sumJoin
        intro c hc hne
        rcases List.mem_cons.mp hc with rfl | hc
        · by_contra htwice
          have hdouble : 2 * weight c ≤ left.countP (on · c) * weight c :=
            Nat.mul_le_mul_right _ (by omega)
          rw [if_pos (decide_eq_true (by omega))] at hsame
          omega
        · exact ih (by omega) c hc hne
  · exact sumJoin_of_once

end Counts

section Balance

variable {α β M : Type} [AddCancelCommMonoid M] {p q : β → Bool} {weight : β → M} {rows : List β}

/-- **Two selections weigh the same exactly where their differences do.** -/
theorem sumWhere_eq_iff :
    sumWhere p weight rows = sumWhere q weight rows ↔
      sumWhere (fun b => p b && !q b) weight rows =
        sumWhere (fun b => q b && !p b) weight rows := by
  have hboth : sumWhere (fun b => p b && q b) weight rows =
      sumWhere (fun b => q b && p b) weight rows :=
    sumWhere_congr fun b _ => Bool.and_comm (p b) (q b)
  rw [sumWhere_split p q, hboth, sumWhere_split q p, add_right_inj]

/-- The same for the pairs of two joins, the second with some rows besides. -/
theorem sumJoin_eq_add_iff {on on' : α → β → Bool} {left : List α} {extra : M} :
    sumJoin on weight left rows = sumJoin on' weight left rows + extra ↔
      sumJoin (fun a b => on a b && !on' a b) weight left rows =
        sumJoin (fun a b => on' a b && !on a b) weight left rows + extra := by
  have hboth : sumJoin (fun a b => on a b && on' a b) weight left rows =
      sumJoin (fun a b => on' a b && on a b) weight left rows := by
    congr 1
    funext a b
    exact Bool.and_comm (on a b) (on' a b)
  rw [sumJoin_split on on', hboth, sumJoin_split on' on, add_assoc, add_right_inj]

end Balance
