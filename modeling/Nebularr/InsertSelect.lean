import Mathlib.Data.List.Dedup
import Nebularr.DistinctOn
import Nebularr.KeyedTable

/-!
# Set-based inserts

`insert … select … on conflict (key) do update` proposes a list of rows and
puts each under its key.  The statement as a whole raises when it proposes
one key twice, so what a `select` must guarantee is that its keys are
different: `distinct on` the key does, `distinct` over whole rows does only
where the rest of the row is a function of the key.
-/

/-- **Distinct pairs have distinct keys exactly when each key has one value.** -/
theorem nodup_keys_dedup_iff {κ ρ : Type} [DecidableEq κ] [DecidableEq ρ] {rows : List (κ × ρ)} :
    (rows.dedup.map Prod.fst).Nodup ↔
      ∀ k r r', (k, r) ∈ rows → (k, r') ∈ rows → r = r' := by
  rw [List.nodup_map_iff_inj_on rows.nodup_dedup]
  constructor
  · intro h k r r' hr hr'
    exact congrArg Prod.snd (h (k, r) (List.mem_dedup.mpr hr) (k, r') (List.mem_dedup.mpr hr') rfl)
  · rintro h ⟨k, r⟩ hr ⟨k', r'⟩ hr' (rfl : k = k')
    rw [h k r r' (List.mem_dedup.mp hr) (List.mem_dedup.mp hr')]

namespace KeyedTable

variable {κ ρ : Type} [DecidableEq κ]

/-- Put each row under its key, in order. -/
def putEach (rows : List (κ × ρ)) (t : KeyedTable κ ρ) : KeyedTable κ ρ :=
  rows.foldl (fun t r => t.upsert r.1 r.2 fun _ => r.2) t

/-- `insert … select … on conflict do update set` every column: it raises when
two rows have one key. -/
def putAll (rows : List (κ × ρ)) (t : KeyedTable κ ρ) : Option (KeyedTable κ ρ) :=
  if (rows.map Prod.fst).Nodup then some (t.putEach rows) else none

theorem isSome_putAll_iff {rows : List (κ × ρ)} {t : KeyedTable κ ρ} :
    (t.putAll rows).isSome = true ↔ (rows.map Prod.fst).Nodup := by
  unfold putAll
  split
  · next h => exact iff_of_true rfl h
  · next h => exact iff_of_false (by simp) h

/-- **Of several entries with one key the last stays**, as in a dict. -/
theorem row_putEach_last (rows : List (κ × ρ)) (k : κ) (t : KeyedTable κ ρ) :
    (t.putEach rows).row k =
      ((rows.reverse.find? fun r => r.1 = k).map Prod.snd).or (t.row k) := by
  unfold putEach
  induction rows generalizing t with
  | nil => rfl
  | cons r rest ih =>
      rw [List.foldl_cons, ih, List.reverse_cons, List.find?_append]
      cases rest.reverse.find? fun r => r.1 = k with
      | some later => rfl
      | none =>
          simp only [Option.map_none, Option.none_or, row_upsert, List.find?_singleton,
            decide_eq_true_eq]
          by_cases h : k = r.1
          · rw [if_pos h, if_pos h.symm]
            cases t.row r.1 <;> rfl
          · rw [if_neg h, if_neg (Ne.symm h)]
            rfl

/-- A key that is not written keeps its row. -/
theorem row_putEach_of_notMem {rows : List (κ × ρ)} {k : κ} (h : k ∉ rows.map Prod.fst)
    (t : KeyedTable κ ρ) : (t.putEach rows).row k = t.row k := by
  unfold putEach
  induction rows generalizing t with
  | nil => rfl
  | cons r rest ih =>
      rw [List.map_cons, List.mem_cons, not_or] at h
      rw [List.foldl_cons, ih h.2, row_upsert_of_ne h.1]

/-- A key with one value in the list has that value afterwards. -/
theorem row_putEach_of_mem {rows : List (κ × ρ)} {k : κ} {r : ρ} (hmem : (k, r) ∈ rows)
    (hone : ∀ r', (k, r') ∈ rows → r' = r) (t : KeyedTable κ ρ) :
    (t.putEach rows).row k = some r := by
  induction rows generalizing t with
  | nil => cases hmem
  | cons first rest ih =>
      have hstep : t.putEach (first :: rest) =
          (t.upsert first.1 first.2 fun _ => first.2).putEach rest := rfl
      rw [hstep]
      by_cases hrest : k ∈ rest.map Prod.fst
      · obtain ⟨⟨k', r'⟩, hr', rfl⟩ := List.mem_map.mp hrest
        have hsame : r' = r := hone r' (List.mem_cons_of_mem _ hr')
        exact ih (hsame ▸ hr') (fun r'' hr'' => hone r'' (List.mem_cons_of_mem _ hr'')) _
      · rw [row_putEach_of_notMem hrest]
        rcases List.mem_cons.mp hmem with heq | hin
        · rw [← heq, row_upsert_self]
          cases t.row k <;> rfl
        · exact absurd (List.mem_map_of_mem hin) hrest

/-- What is under a key afterwards is of the list, or was there. -/
theorem mem_or_row_of_putEach {rows : List (κ × ρ)} {t : KeyedTable κ ρ} {k : κ} {r : ρ}
    (h : (t.putEach rows).row k = some r) : (k, r) ∈ rows ∨ t.row k = some r := by
  induction rows generalizing t with
  | nil => exact Or.inr h
  | cons first rest ih =>
      rcases ih (t := t.upsert first.1 first.2 fun _ => first.2) h with hrest | hrow
      · exact Or.inl (List.mem_cons_of_mem _ hrest)
      · by_cases hkey : k = first.1
        · subst hkey
          have hvalue : first.2 = r := by
            rw [row_upsert_self] at hrow
            cases hold : t.row first.1 <;> simpa [hold] using hrow
          exact Or.inl (List.mem_cons.mpr (Or.inl (Prod.ext rfl hvalue.symm)))
        · rw [row_upsert_of_ne hkey] at hrow
          exact Or.inr hrow

/-- Where a list has at most one row for a key, that row is put there. -/
theorem row_putEach {rows : List (κ × ρ)} {k : κ} {o : Option ρ}
    (h : ∀ r, (k, r) ∈ rows ↔ o = some r) (t : KeyedTable κ ρ) :
    (t.putEach rows).row k = o.or (t.row k) := by
  cases o with
  | none =>
      refine row_putEach_of_notMem ?_ t
      rw [List.mem_map]
      rintro ⟨⟨k', r⟩, hr, rfl⟩
      cases (h r).mp hr
  | some r =>
      refine row_putEach_of_mem ((h r).mpr rfl) ?_ t
      intro r' hr'
      exact (Option.some.inj ((h r').mp hr')).symm

/-- **What a set-based insert leaves under a key**: the proposed row, or the
one on file. -/
theorem row_putAll {rows : List (κ × ρ)} {t t' : KeyedTable κ ρ} (h : t.putAll rows = some t')
    (k : κ) :
    t'.row k = ((rows.find? fun r => r.1 = k).map Prod.snd).or (t.row k) := by
  unfold putAll at h
  split at h
  · next hnodup =>
      obtain rfl := Option.some.inj h
      cases hfind : rows.find? fun r => r.1 = k with
      | none =>
          have hnot : k ∉ rows.map Prod.fst := by
            rw [List.mem_map]
            rintro ⟨r, hr, rfl⟩
            simpa using List.find?_eq_none.mp hfind r hr
          rw [row_putEach_of_notMem hnot]
          rfl
      | some r =>
          have hkey : r.1 = k := by simpa using List.find?_some hfind
          subst hkey
          refine row_putEach_of_mem (List.mem_of_find?_eq_some hfind) ?_ t
          intro r' hr'
          exact congrArg Prod.snd
            (List.inj_on_of_nodup_map hnodup hr' (List.mem_of_find?_eq_some hfind) rfl)
  · cases h

end KeyedTable
