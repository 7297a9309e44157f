import Nebularr.TiedPages

/-!
# The first rows of a union

`order by … limit …` answers with first rows that the order allows, and what it
leaves open the database decides.  A query over a union that asks each branch
for its first rows before it orders them all has the same possible answers as
one that asks for everything (`limitedAnswers_union_iff`).
-/

section TopRows

variable {ρ : Type}

/-- An answer to a query with a limit. -/
def LimitedAnswers (order : ρ → ρ → Ordering) (rows : List ρ) (limit : ℕ) (out : List ρ) : Prop :=
  ∃ answer, Answers order rows answer ∧ out = answer.take limit

/-- First rows, and the rows that the limit cuts off. -/
structure Cut (order : ρ → ρ → Ordering) (rows : List ρ) (limit : ℕ) (out rest : List ρ) :
    Prop where
  perm : (out ++ rest).Perm rows
  sorted : out.Pairwise fun a b => (order a b).isLE = true
  le : ∀ a ∈ out, ∀ b ∈ rest, (order a b).isLE = true
  length : out.length = min limit rows.length

variable {order : ρ → ρ → Ordering} {rows out rest : List ρ} {limit : ℕ}

/-- Rows are cut off only at the limit. -/
theorem Cut.length_eq (h : Cut order rows limit out rest) (hrest : rest ≠ []) :
    out.length = limit := by
  have hlength := h.perm.length_eq
  have hpos := List.length_pos_iff.mpr hrest
  have hout := h.length
  rw [List.length_append] at hlength
  omega

theorem Answers.cut {answer : List ρ} (h : Answers order rows answer) (limit : ℕ) :
    Cut order rows limit (answer.take limit) (answer.drop limit) := by
  have hsorted := h.sorted
  rw [← List.take_append_drop limit answer, List.pairwise_append] at hsorted
  constructor
  · rw [List.take_append_drop]
    exact h.perm
  · exact hsorted.1
  · exact hsorted.2.2
  · rw [List.length_take, h.perm.length_eq]

variable [Std.TransCmp order]

theorem Cut.limitedAnswers (h : Cut order rows limit out rest) :
    LimitedAnswers order rows limit out := by
  obtain ⟨later, hlater⟩ := exists_answers order rest
  refine ⟨out ++ later, ⟨(hlater.perm.append_left out).trans h.perm, ?_⟩, ?_⟩
  · rw [List.pairwise_append]
    exact ⟨h.sorted, hlater.sorted, fun a ha b hb => h.le a ha b (hlater.perm.mem_iff.mp hb)⟩
  · by_cases hrest : rest = []
    · have hnil : later = [] := by
        rw [← List.length_eq_zero_iff, hlater.perm.length_eq, hrest, List.length_nil]
      have hlength := h.length
      rw [hnil, List.append_nil, List.take_of_length_le (by omega)]
    · rw [List.take_left' (h.length_eq hrest)]

theorem limitedAnswers_iff :
    LimitedAnswers order rows limit out ↔ ∃ rest, Cut order rows limit out rest := by
  constructor
  · intro h
    obtain ⟨answer, hanswer, hout⟩ := h
    rw [hout]
    exact ⟨answer.drop limit, hanswer.cut limit⟩
  · intro h
    obtain ⟨rest, hcut⟩ := h
    exact hcut.limitedAnswers

/-- First rows of some rows are continued to the first rows of all. -/
theorem exists_cut_append {part left : List ρ} (hperm : (part ++ left).Perm rows)
    (hsorted : part.Pairwise fun a b => (order a b).isLE = true)
    (hle : ∀ a ∈ part, ∀ b ∈ left, (order a b).isLE = true) (hlength : part.length ≤ limit) :
    ∃ more last, (more ++ last).Perm left ∧ Cut order rows limit (part ++ more) last := by
  obtain ⟨later, hlater⟩ := exists_answers order left
  have hcut := hlater.cut (limit - part.length)
  refine ⟨later.take (limit - part.length), later.drop (limit - part.length), hcut.perm, ?_, ?_,
    ?_, ?_⟩
  · rw [List.append_assoc]
    exact (hcut.perm.append_left part).trans hperm
  · rw [List.pairwise_append]
    refine ⟨hsorted, hcut.sorted, fun a ha b hb => ?_⟩
    exact hle a ha b (hlater.perm.mem_iff.mp (List.mem_of_mem_take hb))
  · intro a ha b hb
    rcases List.mem_append.mp ha with hpart | hmore
    · exact hle a hpart b (hlater.perm.mem_iff.mp (List.mem_of_mem_drop hb))
    · exact hcut.le a hmore b hb
  · have htotal := hperm.length_eq
    have hmore := hcut.length
    rw [List.length_append] at htotal ⊢
    omega

/-- The first rows that a branch has are continued to its own first rows. -/
theorem Cut.branch (h : Cut order rows limit out rest) (q : ρ → Bool) :
    ∃ more last, (more ++ last).Perm (rest.filter q) ∧
      Cut order (rows.filter q) limit (out.filter q ++ more) last := by
  refine exists_cut_append ?_ (h.sorted.sublist List.filter_sublist) (fun a ha b hb => ?_) ?_
  · rw [← List.filter_append]
    exact h.perm.filter q
  · exact h.le a (List.mem_of_mem_filter ha) b (List.mem_of_mem_filter hb)
  · have hlength := h.length
    have hfilter := List.length_filter_le q out
    omega

omit [Std.TransCmp order] in
/-- First rows are first rows of any part that has them. -/
theorem Cut.within {part left : List ρ} (h : Cut order rows limit out rest)
    (hperm : (out ++ left).Perm part)
    (hleft : ∀ b ∈ left, b ∈ rest) (hlength : part.length ≤ rows.length) :
    Cut order part limit out left := by
  refine ⟨hperm, h.sorted, fun a ha b hb => h.le a ha b (hleft b hb), ?_⟩
  have hpart := hperm.length_eq
  have hout := h.length
  rw [List.length_append] at hpart
  omega

/-- **What a branch cuts off does not come before what is answered.**  Otherwise
as many rows of the branch as the limit allows would come before it, and be
answered too. -/
theorem Cut.le_of_cut_branch {branch first dropped others merged : List ρ}
    (hbranch : Cut order branch limit first dropped) (hmerged : (first ++ others).Perm merged)
    (hout : Cut order merged limit out rest) :
    ∀ a ∈ out, ∀ b ∈ dropped, (order a b).isLE = true := by
  intro a ha b hb
  apply Classical.byContradiction
  intro hnot
  have hfull : first.length = limit := hbranch.length_eq (List.ne_nil_of_mem hb)
  have hbefore : ∀ x ∈ first, (!(order a x).isLE) = true := by
    intro x hx
    rw [Bool.not_eq_true', Bool.eq_false_iff]
    intro hle
    exact hnot (Std.TransCmp.isLE_trans hle (hbranch.le x hx b hb))
  have hfirst : first.countP (fun x => !(order a x).isLE) = first.length :=
    List.countP_eq_length.mpr hbefore
  have hrest : rest.countP (fun x => !(order a x).isLE) = 0 := by
    rw [List.countP_eq_zero]
    intro x hx
    rw [hout.le a ha x hx]
    exact Bool.false_ne_true
  have hsame := (hout.perm.trans hmerged.symm).countP_eq fun x => !(order a x).isLE
  rw [List.countP_append, List.countP_append, hfirst, hrest] at hsame
  have hself : out.countP (fun x => !(order a x).isLE) ≠ out.length := by
    intro hall
    have hnotself := List.countP_eq_length.mp hall a ha
    have heq : order a a = .eq := Std.ReflCmp.compare_self
    rw [heq] at hnotself
    cases hnotself
  have hle : out.countP (fun x => !(order a x).isLE) ≤ out.length := List.countP_le_length
  have hlength := hout.length
  omega

theorem perm_append_append (a b c d : List ρ) :
    ((a ++ b) ++ (c ++ d)).Perm ((a ++ c) ++ (b ++ d)) := by
  rw [List.append_assoc, List.append_assoc]
  exact (List.perm_append_comm_assoc b c d).append_left a

/-- The first of the first rows of two branches are the first of all. -/
theorem Cut.of_branches {first second a b restA restB : List ρ} (hA : Cut order first limit a restA)
    (hB : Cut order second limit b restB) (h : Cut order (a ++ b) limit out rest) :
    Cut order (first ++ second) limit out (rest ++ (restA ++ restB)) := by
  refine ⟨?_, h.sorted, fun x hx y hy => ?_, ?_⟩
  · rw [← List.append_assoc]
    refine (h.perm.append_right _).trans ((perm_append_append _ _ _ _).trans ?_)
    exact hA.perm.append hB.perm
  · rcases List.mem_append.mp hy with hrest | hdropped
    · exact h.le x hx y hrest
    · rcases List.mem_append.mp hdropped with hyA | hyB
      · exact hA.le_of_cut_branch (List.Perm.refl _) h x hx y hyA
      · exact hB.le_of_cut_branch List.perm_append_comm h x hx y hyB
  · have hlength := h.length
    have hlengthA := hA.length
    have hlengthB := hB.length
    rw [List.length_append] at hlength ⊢
    omega

/-- **A limit on each branch of a union changes nothing.** -/
theorem limitedAnswers_union_iff {p : ρ → Bool} {first second : List ρ}
    (hfirst : ∀ a ∈ first, p a = true) (hsecond : ∀ b ∈ second, p b = false) :
    LimitedAnswers order (first ++ second) limit out ↔
      ∃ a b, LimitedAnswers order first limit a ∧ LimitedAnswers order second limit b ∧
        LimitedAnswers order (a ++ b) limit out := by
  constructor
  · intro h
    obtain ⟨rest, hcut⟩ := limitedAnswers_iff.mp h
    have hp : (first ++ second).filter p = first := by
      rw [List.filter_append, List.filter_eq_self.mpr hfirst, List.filter_eq_nil_iff.mpr,
        List.append_nil]
      intro b hb
      rw [hsecond b hb]
      exact Bool.false_ne_true
    have hnp : (first ++ second).filter (fun x => !p x) = second := by
      rw [List.filter_append, List.filter_eq_nil_iff.mpr, List.nil_append, List.filter_eq_self.mpr]
      · intro b hb
        rw [hsecond b hb]
        rfl
      · intro a ha
        rw [hfirst a ha]
        exact Bool.false_ne_true
    -- each branch answers with what the union takes of it, and more
    obtain ⟨moreA, lastA, hrestA, hcutA⟩ := hcut.branch p
    obtain ⟨moreB, lastB, hrestB, hcutB⟩ := hcut.branch fun x => !p x
    rw [hp] at hcutA
    rw [hnp] at hcutB
    have hunion :
        Cut order ((out.filter p ++ moreA) ++ (out.filter (fun x => !p x) ++ moreB)) limit out
        (moreA ++ moreB) := by
      refine hcut.within ?_ (fun y hy => ?_) ?_
      · exact ((List.filter_append_perm p out).symm.append_right _).trans
          (perm_append_append _ _ _ _)
      · rcases List.mem_append.mp hy with hA | hB
        · exact List.mem_of_mem_filter (hrestA.mem_iff.mp (List.mem_append_left _ hA))
        · exact List.mem_of_mem_filter (hrestB.mem_iff.mp (List.mem_append_left _ hB))
      · have hlengthA := hcutA.length
        have hlengthB := hcutB.length
        have hall : (first ++ second).length = first.length + second.length := List.length_append
        rw [List.length_append]
        omega
    exact ⟨_, _, hcutA.limitedAnswers, hcutB.limitedAnswers, hunion.limitedAnswers⟩
  · intro h
    obtain ⟨a, b, ha, hb, hout⟩ := h
    obtain ⟨restA, hcutA⟩ := limitedAnswers_iff.mp ha
    obtain ⟨restB, hcutB⟩ := limitedAnswers_iff.mp hb
    obtain ⟨rest, hcut⟩ := limitedAnswers_iff.mp hout
    exact (hcutA.of_branches hcutB hcut).limitedAnswers

end TopRows
