import Nebularr.PythonText

/-!
# Words

The maximal runs of a list between separators, what two kinds of separators make
of one list, and what becomes of the items of a list that is continued.
-/

namespace Nebularr

variable {α : Type} {p q : α → Bool}

section Words

variable (p) in
/-- What stands between separators, without the empty parts. -/
def words (l : List α) : List (List α) := (l.splitOnP p).filter fun word => !word.isEmpty

theorem words_nil : words p [] = [] := by
  rw [words, List.splitOnP_nil]
  rfl

theorem words_append_cons (l l' : List α) {a : α} (ha : p a = true) :
    words p (l ++ a :: l') = words p l ++ words p l' := by
  rw [words, List.splitOnP_append_cons l l' ha, List.filter_append]
  rfl

theorem words_cons {a : α} (l : List α) (ha : p a = true) : words p (a :: l) = words p l := by
  rw [← List.nil_append (a :: l), words_append_cons [] l ha, words_nil, List.nil_append]

theorem words_concat {a : α} (l : List α) (ha : p a = true) : words p (l ++ [a]) = words p l := by
  rw [words_append_cons l [] ha, words_nil, List.append_nil]

/-- A list without separators is a word. -/
theorem words_eq_singleton {l : List α} (hl : ∀ a ∈ l, p a = false) (hne : l ≠ []) :
    words p l = [l] := by
  rw [words, List.splitOnP_eq_singleton hl, List.filter_cons_of_pos (by simpa using hne),
    List.filter_nil]

theorem words_dropWhile (l : List α) : words p (l.dropWhile p) = words p l := by
  induction l with
  | nil => rfl
  | cons a l ih =>
      by_cases ha : p a = true
      · rw [List.dropWhile_cons_of_pos ha, ih, words_cons l ha]
      · rw [List.dropWhile_cons_of_neg ha]

theorem words_rdropWhile (l : List α) : words p (l.rdropWhile p) = words p l := by
  induction l using List.reverseRecOn with
  | nil => rfl
  | append_singleton l a ih =>
      by_cases ha : p a = true
      · rw [List.rdropWhile_concat_pos p l a ha, ih, words_concat l ha]
      · rw [List.rdropWhile_concat_neg p l a ha]

/-- Stripping takes no word away. -/
theorem words_stripBy (l : List α) : words p (stripBy p l) = words p l := by
  rw [stripBy, words_rdropWhile, words_dropWhile]

/-- A list has no separator, or goes on after its first one. -/
theorem separator_induction {motive : List α → Prop} (p : α → Bool)
    (run : ∀ l, (∀ a ∈ l, p a = false) → motive l)
    (split : ∀ before a after, (∀ b ∈ before, p b = false) → p a = true → motive after →
      motive (before ++ a :: after)) (l : List α) : motive l := by
  -- for a list after a part that has no separator
  have hall : ∀ before, (∀ b ∈ before, p b = false) → motive (before ++ l) := by
    induction l with
    | nil =>
        intro before hbefore
        rw [List.append_nil]
        exact run before hbefore
    | cons a l ih =>
        intro before hbefore
        by_cases ha : p a = true
        · exact split before a l hbefore ha (ih [] fun _ h => (nomatch h))
        · rw [List.append_cons]
          apply ih
          rw [List.forall_mem_append]
          exact ⟨hbefore, List.forall_mem_singleton.mpr (Bool.eq_false_iff.mpr ha)⟩
  exact hall [] fun _ h => (nomatch h)

theorem words_congr {l : List α} (h : ∀ a ∈ l, p a = q a) : words p l = words q l := by
  unfold words
  congr 1
  induction l with
  | nil => rfl
  | cons a l ih =>
      rw [List.splitOnP_cons_eq_if_modifyHead, List.splitOnP_cons_eq_if_modifyHead,
        h a List.mem_cons_self,
        ih fun b hb => h b (List.mem_cons_of_mem a hb)]

/-- With more separators, the words are taken apart further. -/
theorem words_or (l : List α) : words (fun a => p a || q a) l = (words p l).flatMap (words q) := by
  have hrun : ∀ run : List α, (∀ a ∈ run, p a = false) →
      words (fun a => p a || q a) run = (words p run).flatMap (words q) := by
    intro run hnone
    have hq : words (fun a => p a || q a) run = words q run :=
      words_congr fun a h => by rw [hnone a h, Bool.false_or]
    by_cases hne : run = []
    · subst hne
      rw [words_nil, words_nil]
      rfl
    · rw [hq, words_eq_singleton hnone hne, List.flatMap_singleton]
  refine separator_induction p hrun ?_ l
  intro before a after hbefore ha ih
  have hboth : (p a || q a) = true := by rw [ha, Bool.true_or]
  rw [words_append_cons before after hboth, words_append_cons before after ha, List.flatMap_append,
    ih,
    hrun before hbefore]

/-- What is no separator is in some word. -/
theorem exists_word_of_mem {l : List α} {a : α} (h : a ∈ l) (ha : p a = false) :
    ∃ word ∈ words p l, a ∈ word := by
  have hrun : ∀ run : List α, (∀ a ∈ run, p a = false) → a ∈ run →
      ∃ word ∈ words p run, a ∈ word := by
    intro run hnone hmem
    refine ⟨run, ?_, hmem⟩
    rw [words_eq_singleton hnone (List.ne_nil_of_mem hmem)]
    exact List.mem_cons_self
  revert h
  refine separator_induction p hrun ?_ l
  intro before b after hbefore hb ih hmem
  have hne : a ≠ b := by
    rintro rfl
    rw [ha] at hb
    cases hb
  rw [words_append_cons before after hb]
  rcases List.mem_append.mp hmem with hfirst | hrest
  · obtain ⟨word, hword, hin⟩ := hrun before hbefore hfirst
    exact ⟨word, List.mem_append_left _ hword, hin⟩
  · obtain ⟨word, hword, hin⟩ := ih ((List.mem_cons.mp hrest).resolve_left hne)
    exact ⟨word, List.mem_append_right _ hword, hin⟩

/-- A word is not empty and has no separator in it. -/
theorem word_of_mem {l word : List α} (h : word ∈ words p l) :
    word ≠ [] ∧ ∀ a ∈ word, p a = false := by
  have hrun : ∀ run : List α, (∀ a ∈ run, p a = false) → word ∈ words p run →
      word ≠ [] ∧ ∀ a ∈ word, p a = false := by
    intro run hnone hword
    by_cases hne : run = []
    · subst hne
      rw [words_nil] at hword
      cases hword
    · rw [words_eq_singleton hnone hne] at hword
      obtain rfl := List.mem_singleton.mp hword
      exact ⟨hne, hnone⟩
  revert h
  refine separator_induction p hrun ?_ l
  intro before b after hbefore hb ih hword
  rw [words_append_cons before after hb] at hword
  exact (List.mem_append.mp hword).elim (hrun before hbefore) ih

end Words

/-- The items of a list that is continued without a separator. -/
theorem exists_splitOn_append [BEq α] [LawfulBEq α] {a : α} (l : List α) {rest : List α}
    (h : a ∉ rest) :
    ∃ items last, l.splitOn a = items ++ [last] ∧
      (l ++ rest).splitOn a = items ++ [last ++ rest] := by
  have hnone : ∀ {run : List α}, (∀ b ∈ run, (b == a) = false) → a ∉ run := by
    intro run hrun hmem
    exact absurd (hrun a hmem) (by simp)
  apply separator_induction (· == a) (l := l)
  · intro run hrun
    refine ⟨[], run, List.splitOn_eq_singleton (hnone hrun), List.splitOn_eq_singleton ?_⟩
    rw [List.mem_append, not_or]
    exact ⟨hnone hrun, h⟩
  · intro before b after hbefore hb ih
    obtain rfl := eq_of_beq hb
    obtain ⟨items, last, hafter, hboth⟩ := ih
    refine ⟨before :: items, last, ?_, ?_⟩
    · rw [List.splitOn_append_cons_self_of_not_mem (hnone hbefore), hafter]
      rfl
    · rw [List.append_assoc, List.cons_append,
        List.splitOn_append_cons_self_of_not_mem (hnone hbefore), hboth]
      rfl

end Nebularr
