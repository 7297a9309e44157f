import Mathlib.Data.List.Basic

/-!
# Searching for a pattern

Regular expressions over classes of characters, tried the way a backtracking
matcher tries them: the first alternative before the second, a longer run before
a shorter one.  A search takes the leftmost place where a pattern matches, and
of the matches there the first.
-/

namespace Nebularr

/-- A pattern; `run` is a greedy repetition of one class. -/
inductive Pattern (α : Type)
  | nothing
  | one (p : α → Bool)
  | run (p : α → Bool)
  | seq (first second : Pattern α)
  | either (first second : Pattern α)

/-- The texts that a pattern stands for. -/
inductive Pattern.Spells {α : Type} : Pattern α → List α → Prop
  | nothing : Spells .nothing []
  | one {p : α → Bool} {a : α} (h : p a = true) : Spells (.one p) [a]
  | run {p : α → Bool} {l : List α} (h : ∀ a ∈ l, p a = true) : Spells (.run p) l
  | seq {first second : Pattern α} {l l' : List α} (h : Spells first l) (h' : Spells second l') :
      Spells (.seq first second) (l ++ l')
  | left {first second : Pattern α} {l : List α} (h : Spells first l) :
    Spells (.either first second) l
  | right {first second : Pattern α} {l : List α} (h : Spells second l) :
    Spells (.either first second) l

namespace Pattern

variable {α : Type}

/-- What a run of a class can leave of a text, the longest run first. -/
def runRests (p : α → Bool) : List α → List (List α)
  | [] => [[]]
  | a :: l => (if p a then runRests p l else []) ++ [a :: l]

/-- What a pattern can leave of a text, in the order in which it is tried. -/
def rests : Pattern α → List α → List (List α)
  | .nothing, l => [l]
  | .one p, a :: l => if p a then [l] else []
  | .one _, [] => []
  | .run p, l => runRests p l
  | .seq first second, l => (first.rests l).flatMap second.rests
  | .either first second, l => first.rests l ++ second.rests l

/-- The text of the group, of a pattern that ends in its group. -/
def search (before group : Pattern α) (text : List α) : Option (List α) :=
  text.tails.findSome? fun start =>
    ((before.rests start).flatMap fun rest =>
      (group.rests rest).map fun after => rest.take (rest.length - after.length)).head?

theorem exists_of_mem_runRests {p : α → Bool} {l rest : List α} (h : rest ∈ runRests p l) :
    ∃ taken, l = taken ++ rest ∧ ∀ a ∈ taken, p a = true := by
  induction l with
  | nil =>
      obtain rfl := List.mem_singleton.mp h
      exact ⟨[], rfl, List.forall_mem_nil _⟩
  | cons a l ih =>
      unfold runRests at h
      obtain hmore | hstop := List.mem_append.mp h
      · by_cases ha : p a = true
        · rw [if_pos ha] at hmore
          obtain ⟨taken, rfl, htaken⟩ := ih hmore
          exact ⟨a :: taken, rfl, List.forall_mem_cons.mpr ⟨ha, htaken⟩⟩
        · rw [if_neg ha] at hmore
          cases hmore
      · obtain rfl := List.mem_singleton.mp hstop
        exact ⟨[], rfl, List.forall_mem_nil _⟩

/-- **A match is a match.** -/
theorem spells_of_mem_rests {pattern : Pattern α} {l rest : List α} (h : rest ∈ pattern.rests l) :
    ∃ taken, l = taken ++ rest ∧ pattern.Spells taken := by
  induction pattern generalizing l rest with
  | nothing =>
      obtain rfl := List.mem_singleton.mp h
      exact ⟨[], rfl, .nothing⟩
  | one p =>
      cases l with
      | nil => cases h
      | cons a l =>
          by_cases ha : p a = true
          · rw [rests, if_pos ha] at h
            obtain rfl := List.mem_singleton.mp h
            exact ⟨[a], rfl, .one ha⟩
          · rw [rests, if_neg ha] at h
            cases h
  | run p =>
      obtain ⟨taken, rfl, htaken⟩ := exists_of_mem_runRests h
      exact ⟨taken, rfl, .run htaken⟩
  | seq first second ihfirst ihsecond =>
      obtain ⟨middle, hmiddle, hrest⟩ := List.mem_flatMap.mp h
      obtain ⟨taken, rfl, htaken⟩ := ihfirst hmiddle
      obtain ⟨taken', rfl, htaken'⟩ := ihsecond hrest
      exact ⟨taken ++ taken', by rw [List.append_assoc], .seq htaken htaken'⟩
  | either first second ihfirst ihsecond =>
      obtain hfirst | hsecond := List.mem_append.mp h
      · obtain ⟨taken, rfl, htaken⟩ := ihfirst hfirst
        exact ⟨taken, rfl, .left htaken⟩
      · obtain ⟨taken, rfl, htaken⟩ := ihsecond hsecond
        exact ⟨taken, rfl, .right htaken⟩

/-- **What a search finds.** -/
theorem spells_of_search {before group : Pattern α} {text found : List α}
    (h : search before group text = some found) : group.Spells found := by
  obtain ⟨start, _, hstart⟩ := List.exists_of_findSome?_eq_some h
  obtain ⟨rest, _, hmem⟩ := List.mem_flatMap.mp (List.mem_of_head? hstart)
  obtain ⟨after, hafter, rfl⟩ := List.mem_map.mp hmem
  obtain ⟨taken, rfl, htaken⟩ := spells_of_mem_rests hafter
  have hlength : (taken ++ after).length - after.length = taken.length := by
    rw [List.length_append]
    omega
  rw [hlength, List.take_left]
  exact htaken

end Pattern

end Nebularr
