import Mathlib.Data.List.Range
import Mathlib.Tactic.Common

/-!
# Loops of attempts

`for attempt in range(first, first + left)` around something that may fail for a
moment.  A turn of the loop ends it, or there is a pause and the next turn.  What
such a loop comes to is what the first turn that ends it comes to
(`attemptLoop_of_done`, `attemptLoop_of_leave`).
-/

section Attempts

variable {α ε : Type}

/-- What becomes of the loop after a turn. -/
inductive Turn (α ε : Type)
  /-- It returns, or raises what nobody catches. -/
  | done (result : α)
  /-- `break`, with the error that is kept. -/
  | leave (error : ε)
  /-- A pause; an error may be kept. -/
  | again (error : Option ε)
deriving DecidableEq, Repr

/-- What a loop has done. -/
structure Attempts (α ε : Type) where
  result : Option α := none
  lastErr : Option ε
  made : ℕ := 0
  /-- The attempts with a pause after them. -/
  paused : List ℕ := []
deriving DecidableEq, Repr

def attemptLoop (turn : ℕ → Turn α ε) : (left attempt : ℕ) → (lastErr : Option ε) → Attempts α ε
  | 0, _, lastErr => { lastErr := lastErr }
  | left + 1, attempt, lastErr =>
      match turn attempt with
      | .done result => { result := some result, lastErr := lastErr, made := 1 }
      | .leave error => { lastErr := some error, made := 1 }
      | .again error =>
          let rest := attemptLoop turn left (attempt + 1) (error.or lastErr)
          { rest with made := rest.made + 1, paused := attempt :: rest.paused }

/-- The loop goes on. -/
def Turn.Again : Turn α ε → Prop
  | .again _ => True
  | _ => False

variable {turn : ℕ → Turn α ε} {left first k : ℕ} {lastErr : Option ε}

/-- Turns that go on only count. -/
theorem attemptLoop_again (hagain : ∀ i < k, (turn (first + i)).Again) :
    ∃ lastErr', attemptLoop turn (k + left) first lastErr =
      { attemptLoop turn left (first + k) lastErr' with
        made := (attemptLoop turn left (first + k) lastErr').made + k
        paused := List.range' first k ++ (attemptLoop turn left (first + k) lastErr').paused } := by
  induction k generalizing first lastErr with
  | zero => exact ⟨lastErr, by rw [Nat.zero_add]; rfl⟩
  | succ k ih =>
      have hfirst := hagain 0 (Nat.succ_pos k)
      rw [Nat.add_zero] at hfirst
      have hlater : ∀ i < k, (turn (first + 1 + i)).Again := by
        intro i hi
        have hstep := hagain (i + 1) (Nat.succ_lt_succ hi)
        rwa [show first + (i + 1) = first + 1 + i by omega] at hstep
      cases hturn : turn first with
      | done result => rw [hturn] at hfirst; exact hfirst.elim
      | leave error => rw [hturn] at hfirst; exact hfirst.elim
      | again error =>
          obtain ⟨lastErr', hrest⟩ := @ih (first + 1) (error.or lastErr) hlater
          refine ⟨lastErr', ?_⟩
          rw [show k + 1 + left = (k + left) + 1 by omega, attemptLoop, hturn]
          simp only [hrest]
          rw [show first + 1 + k = first + (k + 1) by omega]
          rfl

/-- **A loop comes to the first turn that ends it**, by returning. -/
theorem attemptLoop_of_done (hk : k < left) (hagain : ∀ i < k, (turn (first + i)).Again)
    {result : α}
    (hturn : turn (first + k) = .done result) :
    ∃ lastErr', attemptLoop turn left first lastErr =
      { result := some result, lastErr := lastErr', made := k + 1,
        paused := List.range' first k } := by
  obtain ⟨rest, rfl⟩ : ∃ rest, left = k + (rest + 1) := ⟨left - k - 1, by omega⟩
  obtain ⟨lastErr', hloop⟩ := @attemptLoop_again _ _ turn (rest + 1) first k lastErr hagain
  refine ⟨lastErr', ?_⟩
  rw [hloop, attemptLoop, hturn]
  simp only [List.append_nil, Nat.add_comm 1 k]

/-- The same, by a `break`. -/
theorem attemptLoop_of_leave (hk : k < left) (hagain : ∀ i < k, (turn (first + i)).Again)
    {error : ε}
    (hturn : turn (first + k) = .leave error) :
    attemptLoop turn left first lastErr =
      { lastErr := some error, made := k + 1, paused := List.range' first k } := by
  obtain ⟨rest, rfl⟩ : ∃ rest, left = k + (rest + 1) := ⟨left - k - 1, by omega⟩
  obtain ⟨lastErr', hloop⟩ := @attemptLoop_again _ _ turn (rest + 1) first k lastErr hagain
  rw [hloop, attemptLoop, hturn]
  simp only [List.append_nil, Nat.add_comm 1 k]

end Attempts
