import Mathlib.Data.List.Nodup
import Mathlib.Data.List.Sort

/-!
# The first of each key

`distinct on` a key keeps the first row with it.  What is kept, in which order,
and that keeping it again changes nothing; what it comes to under an order; and
the loops that keep in one pass what they have not seen.
-/

section Distinct

variable {α κ : Type} [DecidableEq κ] (key : α → κ)

/-- `select distinct on (key)`: of the rows with one key, the first. -/
def distinctOn : List α → List α
  | [] => []
  | x :: rest => x :: (distinctOn rest).filter fun y => key y ≠ key x

/-- No key is selected twice. -/
theorem nodup_map_distinctOn (rows : List α) : ((distinctOn key rows).map key).Nodup := by
  induction rows with
  | nil => exact List.nodup_nil
  | cons x rest ih =>
      rw [distinctOn, List.map_cons, List.nodup_cons]
      constructor
      · rw [List.mem_map]
        rintro ⟨y, hy, heq⟩
        exact absurd heq (by simpa using (List.mem_filter.mp hy).2)
      · exact ih.sublist (List.filter_sublist.map key)

/-- The row selected for a key is the first with it. -/
theorem find?_distinctOn (rows : List α) (k : κ) :
    ((distinctOn key rows).find? fun x => key x = k) = rows.find? fun x => key x = k := by
  induction rows with
  | nil => rfl
  | cons x rest ih =>
      rw [distinctOn]
      by_cases hx : key x = k
      · simp [hx]
      · have hfilter : ∀ l : List α,
            ((l.filter fun y => key y ≠ key x).find? fun y => key y = k) =
              l.find? fun y => key y = k := by
          intro l
          rw [List.find?_filter]
          congr 1
          funext y
          by_cases hy : key y = k
          · have hne : key y ≠ key x := fun heq => hx (heq.symm.trans hy)
            rw [decide_eq_true hy, decide_eq_true hne]
            rfl
          · simp [hy]
        rw [List.find?_cons_of_neg (by simpa using hx), List.find?_cons_of_neg (by simpa using hx),
          hfilter, ih]

/-- The first row of an ordered list that passes a test is least among those
that do. -/
theorem find?_of_pairwise {r : α → α → Prop} {p : α → Bool} {rows : List α} {x y : α}
    (hordered : rows.Pairwise r) (hfind : rows.find? p = some x) (hy : y ∈ rows)
    (hp : p y = true) : x = y ∨ r x y := by
  obtain ⟨-, before, after, rfl, hbefore⟩ := List.find?_eq_some_iff_append.mp hfind
  rcases List.mem_append.mp hy with hin | hin
  · exact absurd hp (by simpa using hbefore y hin)
  · rcases List.mem_cons.mp hin with rfl | hin
    · exact Or.inl rfl
    · have hrest := (List.pairwise_append.mp hordered).2.1
      exact Or.inr ((List.pairwise_cons.mp hrest).1 y hin)

/-- **What `distinct on … order by` selects depends on the rows, not on their
order**: the least value for each key. -/
theorem find?_distinctOn_insertionSort_congr {rows rows' : List (κ × Int)}
    (h : ∀ x, x ∈ rows ↔ x ∈ rows') (k : κ) :
    ((distinctOn Prod.fst (rows.insertionSort fun a b => a.2 ≤ b.2)).find? fun x => x.1 = k) =
      (distinctOn Prod.fst (rows'.insertionSort fun a b => a.2 ≤ b.2)).find? fun x => x.1 = k := by
  have htotal : Std.Total fun a b : κ × Int => a.2 ≤ b.2 := ⟨fun a b => Int.le_total a.2 b.2⟩
  have htrans : IsTrans (κ × Int) fun a b => a.2 ≤ b.2 := ⟨fun _ _ _ => Int.le_trans⟩
  have hmem : ∀ x, x ∈ rows.insertionSort (fun a b => a.2 ≤ b.2) ↔
      x ∈ rows'.insertionSort fun a b => a.2 ≤ b.2 := by
    intro x
    rw [List.mem_insertionSort, List.mem_insertionSort, h]
  have hordered := List.pairwise_insertionSort (fun a b : κ × Int => a.2 ≤ b.2) rows
  have hordered' := List.pairwise_insertionSort (fun a b : κ × Int => a.2 ≤ b.2) rows'
  rw [find?_distinctOn, find?_distinctOn]
  cases hfind : (rows.insertionSort fun a b => a.2 ≤ b.2).find? fun x => x.1 = k with
  | none =>
      symm
      rw [List.find?_eq_none] at hfind ⊢
      exact fun x hx => hfind x ((hmem x).mpr hx)
  | some x =>
      have hkey : x.1 = k := by simpa using List.find?_some hfind
      have hx := (hmem x).mp (List.mem_of_find?_eq_some hfind)
      cases hfind' : (rows'.insertionSort fun a b => a.2 ≤ b.2).find? fun x => x.1 = k with
      | none => exact absurd hkey (by simpa using List.find?_eq_none.mp hfind' x hx)
      | some y =>
          have hkey' : y.1 = k := by simpa using List.find?_some hfind'
          have hy := (hmem y).mpr (List.mem_of_find?_eq_some hfind')
          have hle : x.2 ≤ y.2 := by
            rcases find?_of_pairwise hordered hfind hy (decide_eq_true hkey') with rfl | hle
            · exact Int.le_refl _
            · exact hle
          have hge : y.2 ≤ x.2 := by
            rcases find?_of_pairwise hordered' hfind' hx (decide_eq_true hkey) with rfl | hge
            · exact Int.le_refl _
            · exact hge
          rw [Prod.ext (hkey.trans hkey'.symm) (Int.le_antisymm hle hge)]

end Distinct

/-! ## What is kept -/

section Kept

variable {α κ : Type} [DecidableEq κ] {key : α → κ} {l l' : List α} {a : α} {k : κ}

theorem distinctOn_sublist (key : α → κ) (l : List α) : (distinctOn key l).Sublist l := by
  induction l with
  | nil => exact List.Sublist.slnil
  | cons a l ih => exact (List.filter_sublist.trans ih).cons_cons a

/-- No key is lost. -/
theorem mem_keys_distinctOn : k ∈ (distinctOn key l).map key ↔ k ∈ l.map key := by
  have hfind : ∀ rows : List α, k ∈ rows.map key ↔
      (rows.find? fun a => key a = k).isSome = true := by
    intro rows
    rw [List.find?_isSome, List.mem_map]
    exact exists_congr fun a => and_congr_right fun _ => decide_eq_true_iff.symm
  rw [hfind, hfind, find?_distinctOn]

/-- What is kept is the first with its key. -/
theorem find?_of_mem_distinctOn (h : a ∈ distinctOn key l) :
    l.find? (fun b => key b = key a) = some a := by
  induction l with
  | nil => cases h
  | cons b l ih =>
      obtain rfl | hlater := List.mem_cons.mp h
      · exact List.find?_cons_of_pos (by simp)
      · obtain ⟨hkept, hne⟩ := List.mem_filter.mp hlater
        have hother : key b ≠ key a := (of_decide_eq_true hne).symm
        rw [List.find?_cons_of_neg (by simpa using hother), ih hkept]

/-- Where different elements have different keys, they are all kept. -/
theorem mem_distinctOn_of_injective (hkey : Function.Injective key) :
    a ∈ distinctOn key l ↔ a ∈ l := by
  rw [← List.mem_map_of_injective hkey, mem_keys_distinctOn, List.mem_map_of_injective hkey]

theorem distinctOn_append (l l' : List α) :
    distinctOn key (l ++ l') =
      distinctOn key l ++ (distinctOn key l').filter fun a => key a ∉ l.map key := by
  induction l with
  | nil => simp [distinctOn]
  | cons a l ih =>
      rw [List.cons_append, distinctOn, ih, List.filter_append, List.filter_filter, distinctOn,
        List.cons_append]
      congr 2
      apply List.filter_congr
      intro b _
      simp [not_or]

theorem distinctOn_eq_self (h : (l.map key).Nodup) : distinctOn key l = l := by
  induction l with
  | nil => rfl
  | cons a l ih =>
      rw [List.map_cons, List.nodup_cons] at h
      rw [distinctOn, ih h.2, List.filter_eq_self.mpr]
      intro b hb
      refine decide_eq_true fun heq => h.1 ?_
      rw [← heq]
      exact List.mem_map_of_mem hb

/-- **What is added again adds nothing.** -/
theorem distinctOn_again (l l' : List α) :
    distinctOn key (distinctOn key (l ++ l') ++ l') = distinctOn key (l ++ l') := by
  have hadded : ((distinctOn key l').filter fun a => key a ∉ (distinctOn key (l ++ l')).map key) =
      [] := by
    rw [List.filter_eq_nil_iff]
    intro a ha
    have hmem : key a ∈ (distinctOn key (l ++ l')).map key :=
      mem_keys_distinctOn.mpr
        (List.mem_map_of_mem (List.mem_append_right l ((distinctOn_sublist key l').subset ha)))
    rw [decide_eq_true_iff, not_not]
    exact hmem
  rw [distinctOn_append, distinctOn_eq_self (nodup_map_distinctOn key _), hadded, List.append_nil]

end Kept

/-! ## The loops -/

section Loops

variable {α κ : Type} [DecidableEq κ] {key : α → κ} {seen : List κ} {l : List α} {a : α}

/-- What a loop keeps that has seen some keys. -/
def unseen (key : α → κ) (seen : List κ) (l : List α) : List α :=
  (distinctOn key l).filter fun a => key a ∉ seen

@[simp] theorem unseen_nil (key : α → κ) (seen : List κ) : unseen key seen [] = [] := rfl

theorem unseen_of_none (key : α → κ) (l : List α) : unseen key [] l = distinctOn key l :=
  List.filter_eq_self.mpr fun _ _ => decide_eq_true List.not_mem_nil

theorem unseen_cons_of_mem (h : key a ∈ seen) : unseen key seen (a :: l) = unseen key seen l := by
  rw [unseen, distinctOn, List.filter_cons_of_neg (by simpa using h), List.filter_filter]
  apply List.filter_congr
  intro b _
  by_cases hb : key b ∈ seen
  · simp [hb]
  · have hne : key b ≠ key a := fun heq => hb (heq ▸ h)
    simp [hb, hne]

theorem unseen_cons_of_notMem (h : key a ∉ seen) :
    unseen key seen (a :: l) = a :: unseen key (key a :: seen) l := by
  rw [unseen, distinctOn, List.filter_cons_of_pos (by simpa using h), List.filter_filter]
  congr 1
  apply List.filter_congr
  intro b _
  simp [not_or, Bool.and_comm]

/-- The loop that goes through the list it makes. -/
theorem foldl_append_new (l out : List α) :
    l.foldl (fun out a => if key a ∈ out.map key then out else out ++ [a]) out =
      out ++ unseen key (out.map key) l := by
  induction l generalizing out with
  | nil => simp
  | cons a l ih =>
      rw [List.foldl_cons, ih]
      by_cases hseen : key a ∈ out.map key
      · rw [if_pos hseen, unseen_cons_of_mem hseen]
      · have hadded : unseen key ((out ++ [a]).map key) l =
            unseen key (key a :: out.map key) l := by
          apply List.filter_congr
          intro b _
          simp [or_comm]
        rw [if_neg hseen, unseen_cons_of_notMem hseen, hadded, List.append_assoc]
        rfl

end Loops
