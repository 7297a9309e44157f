import Mathlib.Tactic.Common

/-!
# Conditions with an unknown, and outer joins

In a relational query a comparison with a missing value is neither true nor
false but *unknown*, the connectives are Kleene's, and `where` and `on` keep
the rows on which the condition is true.  So `not c` does not select the rows
that `c` leaves out: it selects those on which `c` is false.  The two agree
where `c` is *definite*, and most of this file is about that: a comparison of
present values is definite, an `exists` always is, and the connectives keep it.

An outer join returns each left row with every right row that matches it, or
once with nothing.
-/

/-- A truth value of a relational condition. -/
inductive Truth
  | yes
  | no
  | unknown
deriving DecidableEq, Repr

namespace Truth

/-- A condition without unknowns. -/
def ofBool (b : Bool) : Truth := if b then yes else no

/-- `not`. -/
def not : Truth → Truth
  | yes => no
  | no => yes
  | unknown => unknown

/-- `and`: false as soon as one side is. -/
def and : Truth → Truth → Truth
  | yes, t => t
  | no, _ => no
  | unknown, no => no
  | unknown, _ => unknown

/-- `or`: true as soon as one side is. -/
def or : Truth → Truth → Truth
  | no, t => t
  | yes, _ => yes
  | unknown, yes => yes
  | unknown, _ => unknown

/-- A list of conditions joined by `and`. -/
def all (conditions : List Truth) : Truth := conditions.foldr and yes

/-- A list of conditions joined by `or`. -/
def any (conditions : List Truth) : Truth := conditions.foldr or no

/-- A test of a column that may be null. -/
def onColumn {α : Type} (column : Option α) (test : α → Bool) : Truth :=
  column.elim unknown fun value => ofBool (test value)

/-- What `where` and `on` ask of a row. -/
def Holds (t : Truth) : Prop := t = yes

instance (t : Truth) : Decidable t.Holds := inferInstanceAs (Decidable (t = yes))

/-- Not unknown. -/
def Definite (t : Truth) : Prop := t ≠ unknown

/-- `exists (select … where p)`. -/
def existsRow {α : Type} (rows : List α) (p : α → Truth) : Truth :=
  ofBool (rows.any fun row => decide (p row).Holds)

variable {s t : Truth}

/-- A truth value of two holds if it is true. -/
@[simp] theorem holds_ofBool {b : Bool} : (ofBool b).Holds ↔ b = true := by
  cases b <;> simp [ofBool, Holds]

/-- A conjunction holds if both do. -/
@[simp] theorem holds_and : (s.and t).Holds ↔ s.Holds ∧ t.Holds := by
  cases s <;> cases t <;> simp [and, Holds]

/-- A disjunction holds if one does. -/
@[simp] theorem holds_or : (s.or t).Holds ↔ s.Holds ∨ t.Holds := by
  cases s <;> cases t <;> simp [or, Holds]

/-- Every condition of the list is true. -/
@[simp] theorem holds_all {conditions : List Truth} :
    (all conditions).Holds ↔ ∀ c ∈ conditions, c.Holds := by
  induction conditions with
  | nil => simp [all, Holds]
  | cons c rest ih =>
      have hstep : all (c :: rest) = c.and (all rest) := rfl
      simp [hstep, ih]

/-- Some condition of the list is true. -/
@[simp] theorem holds_any {conditions : List Truth} :
    (any conditions).Holds ↔ ∃ c ∈ conditions, c.Holds := by
  induction conditions with
  | nil => simp [any, Holds]
  | cons c rest ih =>
      have hstep : any (c :: rest) = c.or (any rest) := rfl
      simp [hstep, ih]

/-- A test of a column holds if there is a value that passes it. -/
@[simp] theorem holds_onColumn {α : Type} {column : Option α} {test : α → Bool} :
    (onColumn column test).Holds ↔ ∃ value, column = some value ∧ test value = true := by
  cases column with
  | none => simp [onColumn, Holds]
  | some value => simp [onColumn]

/-- `exists` holds if the condition does at some row. -/
@[simp] theorem holds_existsRow {α : Type} {rows : List α} {p : α → Truth} :
    (existsRow rows p).Holds ↔ ∃ row ∈ rows, (p row).Holds := by
  simp [existsRow]

/-- A truth value of two is not null. -/
@[simp] theorem definite_ofBool (b : Bool) : (ofBool b).Definite := by
  cases b <;> simp [ofBool, Definite]

/-- `exists` is never null. -/
@[simp] theorem definite_existsRow {α : Type} (rows : List α) (p : α → Truth) :
    (existsRow rows p).Definite := definite_ofBool _

/-- Nor is a conjunction of what is not. -/
theorem Definite.and (hs : s.Definite) (ht : t.Definite) : (s.and t).Definite := by
  cases s <;> cases t <;> simp_all [Truth.and, Definite]

/-- Nor of any number of them. -/
theorem Definite.all {conditions : List Truth} (h : ∀ c ∈ conditions, c.Definite) :
    (Truth.all conditions).Definite := by
  induction conditions with
  | nil => simp [Truth.all, Definite]
  | cons c rest ih =>
      have hhead := h c List.mem_cons_self
      have htail := ih fun c' hc' => h c' (List.mem_cons_of_mem c hc')
      exact hhead.and htail

/-- **Negation is complement only where there is no unknown.** -/
theorem holds_not_iff (h : t.Definite) : t.not.Holds ↔ ¬ t.Holds := by
  cases t with
  | yes => simp [not, Holds]
  | no => simp [not, Holds]
  | unknown => exact absurd rfl h

end Truth

section Joins

variable {β : Type}

/-- `left join … on c` for one left row: the right rows on which `c` is true,
or nothing. -/
def leftJoin (rows : List β) (on : β → Truth) : List (Option β) :=
  if rows.any fun row => decide (on row).Holds then
    (rows.filter fun row => decide (on row).Holds).map some
  else
    [none]

/-- A test that the null row fails asks whether some right row matches and
passes it. -/
theorem any_leftJoin {rows : List β} {on : β → Truth} {p : Option β → Bool}
    (hnull : p none = false) :
    (leftJoin rows on).any p = rows.any fun row => decide (on row).Holds && p (some row) := by
  unfold leftJoin
  by_cases hmatch : (rows.any fun row => decide (on row).Holds) = true
  · rw [if_pos hmatch, List.any_map, List.any_filter]
    rfl
  · have hnone : (rows.any fun row => decide (on row).Holds && p (some row)) = false := by
      rw [List.any_eq_false]
      intro row hrow hboth
      rw [Bool.and_eq_true] at hboth
      exact hmatch (List.any_eq_true.mpr ⟨row, hrow, hboth.1⟩)
    rw [if_neg hmatch, hnone, List.any_cons, List.any_nil, hnull, Bool.false_or]

/-- A left row comes back once for each match, and once when there is none. -/
theorem length_leftJoin {rows : List β} {on : β → Truth} :
    (leftJoin rows on).length = max 1 (rows.countP fun row => decide (on row).Holds) := by
  rw [leftJoin, List.countP_eq_length_filter]
  by_cases hmatch : (rows.any fun row => decide (on row).Holds) = true
  · obtain ⟨row, hrow, hon⟩ := List.any_eq_true.mp hmatch
    have hpos : 0 < (rows.filter fun row => decide (on row).Holds).length :=
      List.length_pos_of_mem (List.mem_filter.mpr ⟨hrow, hon⟩)
    rw [if_pos hmatch, List.length_map]
    omega
  · have hnone : (rows.filter fun row => decide (on row).Holds) = [] := by
      rw [List.filter_eq_nil_iff]
      intro row hrow hon
      exact hmatch (List.any_eq_true.mpr ⟨row, hrow, hon⟩)
    rw [if_neg hmatch, hnone]
    rfl

/-- A join of at most one row with at most one row has at most one row. -/
theorem length_flatMap_le_one {α : Type} {rows : List α} {f : α → List β}
    (hrows : rows.length ≤ 1) (hf : ∀ row ∈ rows, (f row).length ≤ 1) :
    (rows.flatMap f).length ≤ 1 := by
  match rows, hrows with
  | [], _ => exact Nat.zero_le 1
  | [row], _ =>
      rw [List.flatMap_singleton]
      exact hf row List.mem_cons_self

end Joins
