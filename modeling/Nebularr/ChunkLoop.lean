import Mathlib.Data.PNat.Basic

/-!
# Chunked loops with a stop request

The loop shape

    for start in range(0, len(items), size):
        if should_stop(): break
        body(items[start : start + size])

The slices are the source's, index arithmetic included.  The stop request is
an oracle `stop`: its value at `n` is what the `n`-th check of the whole
program reads, so a caller can go on checking after the loop.  A body may
fail, which leaves the loop with the state it had reached.

`chunkLoop_invariant` is the induction every user of the loop needs;
`chunkLoop_ok` and `chunkLoop_stopped` say what the exit tells about the
checks.  A body that fetches first and then writes what it got separates the
two: `loopAnswers` is the loop run for its answers alone, and
`chunkLoop_answers` says that the loop is the writes folded over them.

A body of several transactions may fail between two of them and leave the
first behind.  `tornLoop` is the loop over such bodies: `chunkLoop` is the
case in which a failed body leaves nothing (`project_tornLoop`).
-/

/-- `[items[start : start + size] for start in range(0, len(items), size)]`. -/
def slices {α : Type} (size : ℕ+) (items : List α) : List (List α) :=
  (List.range ((items.length + size - 1) / size)).map fun i => (items.drop (i * size)).take size

/-- The first `n` slices read the first `n * size` items. -/
theorem flatten_range_slices {α : Type} (size : ℕ) (items : List α) (n : ℕ) :
    ((List.range n).map fun i => (items.drop (i * size)).take size).flatten =
      items.take (n * size) := by
  induction n with
  | zero => simp
  | succ n ih =>
      rw [List.range_succ, List.map_append, List.flatten_append, ih, Nat.succ_mul, List.take_add]
      simp

/-- **The slices read the list**, whatever the chunk size. -/
@[simp] theorem flatten_slices {α : Type} (size : ℕ+) (items : List α) :
    (slices size items).flatten = items := by
  rw [slices, flatten_range_slices]
  apply List.take_of_length_le
  have hpos : 0 < (size : ℕ) := size.pos
  have hdiv := Nat.div_add_mod (items.length + size - 1) size
  have hmod := Nat.mod_lt (items.length + size - 1) hpos
  rw [Nat.mul_comm] at hdiv
  omega

/-- An item is in the list exactly when it is in some slice. -/
theorem mem_slices_iff {α : Type} {size : ℕ+} {items : List α} {x : α} :
    (∃ chunk ∈ slices size items, x ∈ chunk) ↔ x ∈ items := by
  rw [← List.mem_flatten, flatten_slices]

/-- No slice is empty. -/
theorem ne_nil_of_mem_slices {α : Type} {size : ℕ+} {items chunk : List α}
    (h : chunk ∈ slices size items) : chunk ≠ [] := by
  obtain ⟨i, hi, rfl⟩ := List.mem_map.mp h
  have hpos : 0 < (size : ℕ) := size.pos
  have hlt := List.mem_range.mp hi
  have hle : (i + 1) * size ≤ items.length + size - 1 :=
    (Nat.le_div_iff_mul_le hpos).mp hlt
  rw [Nat.succ_mul] at hle
  have hstart : i * size < items.length := by omega
  rw [← List.length_pos_iff, List.length_take, List.length_drop]
  omega

/-- Only an empty list has no slices. -/
theorem slices_eq_nil_iff {α : Type} {size : ℕ+} {items : List α} :
    slices size items = [] ↔ items = [] := by
  constructor
  · intro h
    rw [← flatten_slices size items, h, List.flatten_nil]
  · rintro rfl
    rw [List.eq_nil_iff_forall_not_mem]
    intro chunk hchunk
    obtain ⟨x, hx⟩ := List.exists_mem_of_ne_nil chunk (ne_nil_of_mem_slices hchunk)
    exact List.not_mem_nil (mem_slices_iff.mp ⟨chunk, hchunk, hx⟩)

theorem slices_nil {α : Type} (size : ℕ+) : slices size ([] : List α) = [] :=
  slices_eq_nil_iff.mpr rfl

/-- A list of one item is one slice. -/
theorem slices_singleton {α : Type} (size : ℕ+) (x : α) : slices size [x] = [[x]] := by
  have hpos : 0 < (size : ℕ) := size.pos
  have hcount : ([x].length + (size : ℕ) - 1) / size = 1 := by
    rw [List.length_singleton, Nat.add_sub_cancel_left, Nat.div_self hpos]
  have htake : [x].take (size : ℕ) = [x] := List.take_of_length_le hpos
  rw [slices, hcount]
  simp [htake]

/-- A property of every split of a list, one element at a time. -/
theorem forall_split_cons_iff {α : Type} {P : List α → α → Prop} {a : α} {l : List α} :
    (∀ pre x post, a :: l = pre ++ x :: post → P pre x) ↔
      P [] a ∧ ∀ pre x post, l = pre ++ x :: post → P (a :: pre) x := by
  constructor
  · intro h
    exact ⟨h [] a l rfl, fun pre x post hl => h (a :: pre) x post (by rw [hl, List.cons_append])⟩
  · intro h pre x post hl
    cases pre with
    | nil =>
        obtain ⟨rfl, _⟩ := List.cons.inj hl
        exact h.1
    | cons b pre =>
        obtain ⟨rfl, hrest⟩ := List.cons.inj hl
        exact h.2 pre x post hrest

/-- How a loop ended: the state reached, the number of stop checks made so
far, whether a check broke the loop, and the error that left it. -/
structure LoopExit (ε σ : Type) where
  state : σ
  checks : ℕ
  stopped : Bool
  error : Option ε

section ChunkLoop

variable {ε σ χ : Type}

/-- The loop, started when `n` checks have already been made. -/
def chunkLoop (stop : ℕ → Bool) (body : χ → σ → Except ε σ) : ℕ → List χ → σ → LoopExit ε σ
  | n, [], s => ⟨s, n, false, none⟩
  | n, chunk :: rest, s =>
      if stop n then ⟨s, n + 1, true, none⟩
      else
        match body chunk s with
        | .error e => ⟨s, n + 1, false, some e⟩
        | .ok s' => chunkLoop stop body (n + 1) rest s'

variable {stop : ℕ → Bool} {body : χ → σ → Except ε σ}

/-- **Loop invariant rule.**  What every successful body keeps holds of the
state at the exit, however the loop ended. -/
theorem chunkLoop_invariant (inv : σ → Prop) {chunks : List χ}
    (hbody : ∀ chunk ∈ chunks, ∀ s s', inv s → body chunk s = .ok s' → inv s') :
    ∀ {n s}, inv s → inv (chunkLoop stop body n chunks s).state := by
  induction chunks with
  | nil => exact fun hs => hs
  | cons chunk rest ih =>
      intro n s hs
      unfold chunkLoop
      split
      · exact hs
      · split
        · exact hs
        · next s' hok =>
            exact ih (fun c hc => hbody c (List.mem_cons_of_mem _ hc))
              (hbody chunk List.mem_cons_self s s' hs hok)

/-- A loop broken by a check read a stop request at its last check. -/
theorem chunkLoop_stopped {chunks : List χ} :
    ∀ {n s}, (chunkLoop stop body n chunks s).stopped = true →
      ∃ m, (chunkLoop stop body n chunks s).checks = m + 1 ∧ stop m = true := by
  induction chunks with
  | nil =>
      intro n s h
      cases h
  | cons chunk rest ih =>
      intro n s h
      unfold chunkLoop at h ⊢
      split
      · next hstop => exact ⟨n, rfl, hstop⟩
      · next hstop =>
          rw [if_neg hstop] at h
          split
          · next hbody =>
              rw [hbody] at h
              cases h
          · next s' hbody =>
              rw [hbody] at h
              exact ih h

/-- A loop that ran through all its chunks made one check a chunk, and none
of them read a stop request. -/
theorem chunkLoop_completed {chunks : List χ} :
    ∀ {n s}, (chunkLoop stop body n chunks s).stopped = false →
      (chunkLoop stop body n chunks s).error = none →
      (chunkLoop stop body n chunks s).checks = n + chunks.length ∧
        ∀ m, n ≤ m → m < n + chunks.length → stop m = false := by
  induction chunks with
  | nil =>
      intro n s _ _
      exact ⟨rfl, fun m hlow hhigh => absurd hhigh (by simpa using hlow)⟩
  | cons chunk rest ih =>
      intro n s hstopped herror
      unfold chunkLoop at hstopped herror ⊢
      by_cases hstop : stop n = true
      · simp [hstop] at hstopped
      · rw [if_neg hstop] at hstopped herror ⊢
        cases hbody : body chunk s with
        | error e => simp [hbody] at herror
        | ok s' =>
            simp only [hbody] at hstopped herror ⊢
            obtain ⟨hchecks, hrest⟩ := ih hstopped herror
            refine ⟨by simp only [List.length_cons]; omega, ?_⟩
            intro m hlow hhigh
            by_cases heq : m = n
            · subst heq
              simpa using hstop
            · exact hrest m (by omega) (by simp only [List.length_cons] at hhigh; omega)

/-- Without a stop request and with bodies that all succeed, the loop is the
plain fold of the bodies and makes one check a chunk. -/
theorem chunkLoop_ok {chunks : List χ} (step : χ → σ → σ)
    (hbody : ∀ chunk ∈ chunks, ∀ s, body chunk s = .ok (step chunk s)) :
    ∀ {n s}, (∀ m, n ≤ m → m < n + chunks.length → stop m = false) →
      chunkLoop stop body n chunks s =
        ⟨chunks.foldl (fun s chunk => step chunk s) s, n + chunks.length, false, none⟩ := by
  induction chunks with
  | nil =>
      intro n s _
      rfl
  | cons chunk rest ih =>
      intro n s hstop
      have hhead : stop n = false := hstop n (Nat.le_refl n) (by simp)
      have htail : ∀ m, n + 1 ≤ m → m < n + 1 + rest.length → stop m = false := by
        intro m hlow hhigh
        exact hstop m (by omega) (by simp only [List.length_cons]; omega)
      have hrest := ih (fun c hc => hbody c (List.mem_cons_of_mem _ hc))
        (n := n + 1) (s := step chunk s) htail
      unfold chunkLoop
      simp only [hhead, hbody chunk List.mem_cons_self, Bool.false_eq_true, if_false, hrest]
      simp only [List.foldl_cons, List.length_cons, LoopExit.mk.injEq, and_true, true_and]
      omega

/-- The loop run for the answers it fetches; which chunks it reaches does not
depend on what is done with them. -/
def loopAnswers {β : Type} (stop : ℕ → Bool) (fetch : χ → Except ε β) :
    ℕ → List χ → LoopExit ε (List β)
  | n, [] => ⟨[], n, false, none⟩
  | n, chunk :: rest =>
      if stop n then ⟨[], n + 1, true, none⟩
      else
        match fetch chunk with
        | .error e => ⟨[], n + 1, false, some e⟩
        | .ok answer =>
            let later := loopAnswers stop fetch (n + 1) rest
            { later with state := answer :: later.state }

/-- **Fetch, then write.**  A loop whose body writes what it fetched leaves the
state that its answers, written one after the other, leave. -/
theorem chunkLoop_answers {β : Type} (fetch : χ → Except ε β) (write : β → σ → σ)
    (chunks : List χ) :
    ∀ (n : ℕ) (s : σ),
      chunkLoop stop (fun chunk s => (fetch chunk).map (write · s)) n chunks s =
        { loopAnswers stop fetch n chunks with
          state := (loopAnswers stop fetch n chunks).state.foldl (fun s b => write b s) s } := by
  induction chunks with
  | nil => exact fun _ _ => rfl
  | cons chunk rest ih =>
      intro n s
      unfold chunkLoop loopAnswers
      by_cases hstop : stop n = true
      · simp [hstop]
      · rw [if_neg hstop, if_neg hstop]
        cases hfetch : fetch chunk with
        | error e => rfl
        | ok answer => exact ih (n + 1) (write answer s)

/-- Every answer of the loop was fetched for one of its chunks. -/
theorem mem_loopAnswers {β : Type} {fetch : χ → Except ε β} {chunks : List χ} {answer : β} :
    ∀ {n : ℕ}, answer ∈ (loopAnswers stop fetch n chunks).state →
      ∃ chunk ∈ chunks, fetch chunk = .ok answer := by
  induction chunks with
  | nil => exact fun h => nomatch h
  | cons chunk rest ih =>
      intro n h
      unfold loopAnswers at h
      by_cases hstop : stop n = true
      · simp [hstop] at h
      · rw [if_neg hstop] at h
        cases hfetch : fetch chunk with
        | error e => simp [hfetch] at h
        | ok first =>
            simp only [hfetch, List.mem_cons] at h
            rcases h with rfl | h
            · exact ⟨chunk, List.mem_cons_self, hfetch⟩
            · obtain ⟨c, hc, hanswer⟩ := ih h
              exact ⟨c, List.mem_cons_of_mem _ hc, hanswer⟩

end ChunkLoop

section TornLoop

variable {ε σ χ : Type}

/-- The loop over bodies that may leave a part of their work behind when they
fail.  A body is told the number of its chunk. -/
def tornLoop (stop : ℕ → Bool) (body : ℕ → χ → σ → σ × Option ε) :
    ℕ → List χ → σ → LoopExit ε σ
  | n, [], s => ⟨s, n, false, none⟩
  | n, chunk :: rest, s =>
      if stop n then ⟨s, n + 1, true, none⟩
      else
        match body n chunk s with
        | (s', some e) => ⟨s', n + 1, false, some e⟩
        | (s', none) => tornLoop stop body (n + 1) rest s'

variable {stop : ℕ → Bool}

/-- The same exit seen from a coarser state. -/
def LoopExit.project {τ : Type} (proj : σ → τ) (exit : LoopExit ε σ) : LoopExit ε τ :=
  ⟨proj exit.state, exit.checks, exit.stopped, exit.error⟩

/-- Bodies that leave nothing behind make the plain loop, up to what the state
records besides. -/
theorem project_tornLoop {τ : Type} {body : ℕ → χ → σ → σ × Option ε} (proj : σ → τ)
    (whole : χ → τ → Except ε τ)
    (hbody : ∀ n chunk s, (proj (body n chunk s).1, (body n chunk s).2) =
      match whole chunk (proj s) with
      | .error e => (proj s, some e)
      | .ok t => (t, none)) (chunks : List χ) :
    ∀ n s, (tornLoop stop body n chunks s).project proj =
      chunkLoop stop whole n chunks (proj s) := by
  induction chunks with
  | nil => exact fun _ _ => rfl
  | cons chunk rest ih =>
      intro n s
      have hstep := hbody n chunk s
      unfold tornLoop chunkLoop
      by_cases hstop : stop n = true
      · rw [if_pos hstop, if_pos hstop]
        rfl
      · rw [if_neg hstop, if_neg hstop]
        rcases hresult : body n chunk s with ⟨s', failure⟩
        rw [hresult] at hstep
        cases hwhole : whole chunk (proj s) with
        | error e =>
            simp only [hwhole, Prod.mk.injEq] at hstep
            obtain ⟨hs', rfl⟩ := hstep
            simp [LoopExit.project, hs']
        | ok t =>
            simp only [hwhole, Prod.mk.injEq] at hstep
            obtain ⟨hs', rfl⟩ := hstep
            simp only
            rw [ih (n + 1) s', hs']

/-- **Loop invariant rule** for torn bodies: what a body keeps whether it
succeeds or fails holds at the exit. -/
theorem tornLoop_invariant {body : ℕ → χ → σ → σ × Option ε} (inv : σ → Prop)
    (hbody : ∀ n chunk s, inv s → inv (body n chunk s).1) (chunks : List χ) :
    ∀ n s, inv s → inv (tornLoop stop body n chunks s).state := by
  induction chunks with
  | nil => exact fun _ _ hs => hs
  | cons chunk rest ih =>
      intro n s hs
      have hnext := hbody n chunk s hs
      unfold tornLoop
      split
      · exact hs
      · split
        · next s' e hfailed =>
            rw [hfailed] at hnext
            exact hnext
        · next s' hdone =>
            rw [hdone] at hnext
            exact ih (n + 1) s' hnext

/-- The same rule for a loop that nothing broke off: only bodies that succeed
have to keep the invariant. -/
theorem tornLoop_invariant_of_error_none {body : ℕ → χ → σ → σ × Option ε} (inv : σ → Prop)
    (hbody : ∀ n chunk s s', inv s → body n chunk s = (s', none) → inv s') (chunks : List χ) :
    ∀ n s, inv s → (tornLoop stop body n chunks s).error = none →
      inv (tornLoop stop body n chunks s).state := by
  induction chunks with
  | nil => exact fun _ _ hs _ => hs
  | cons chunk rest ih =>
      intro n s hs herror
      unfold tornLoop at herror ⊢
      by_cases hstop : stop n = true
      · rw [if_pos hstop]
        exact hs
      · rw [if_neg hstop] at herror ⊢
        rcases hstep : body n chunk s with ⟨s', _ | e⟩
        · simp only [hstep] at herror ⊢
          exact ih (n + 1) s' (hbody n chunk s s' hs hstep) herror
        · simp [hstep] at herror

/-- A loop that ran through has every chunk in its log, when each body that
succeeds logs its own. -/
theorem tornLoop_log {body : ℕ → χ → σ → σ × Option ε} (log : σ → List χ)
    (hbody : ∀ n chunk s s', body n chunk s = (s', none) → log s' = log s ++ [chunk])
    (chunks : List χ) :
    ∀ n s, (tornLoop stop body n chunks s).stopped = false →
      (tornLoop stop body n chunks s).error = none →
      log (tornLoop stop body n chunks s).state = log s ++ chunks := by
  induction chunks with
  | nil => exact fun _ s _ _ => (List.append_nil (log s)).symm
  | cons chunk rest ih =>
      intro n s hstopped herror
      unfold tornLoop at hstopped herror ⊢
      by_cases hstop : stop n = true
      · simp [hstop] at hstopped
      · rw [if_neg hstop] at hstopped herror ⊢
        rcases hstep : body n chunk s with ⟨s', _ | e⟩
        · simp only [hstep] at hstopped herror ⊢
          rw [ih (n + 1) s' hstopped herror, hbody n chunk s s' hstep, List.append_assoc]
          rfl
        · simp [hstep] at herror

/-- However the loop ends, its log holds the first of its chunks and nothing
else, when a body logs its chunk or, failing, perhaps does not. -/
theorem tornLoop_log_first {body : ℕ → χ → σ → σ × Option ε} (log : σ → List χ)
    (hdone : ∀ n chunk s s', body n chunk s = (s', none) → log s' = log s ++ [chunk])
    (hfailed : ∀ n chunk s s' e, body n chunk s = (s', some e) →
      log s' = log s ∨ log s' = log s ++ [chunk])
    (chunks : List χ) :
    ∀ n s, log (tornLoop stop body n chunks s).state <+: log s ++ chunks := by
  induction chunks with
  | nil => exact fun _ s => List.prefix_append (log s) []
  | cons chunk rest ih =>
      intro n s
      have hone : log s ++ [chunk] <+: log s ++ chunk :: rest :=
        (List.prefix_append_right_inj (log s)).mpr ⟨rest, rfl⟩
      unfold tornLoop
      split
      · exact List.prefix_append (log s) _
      · split
        · next s' e hstep =>
            rcases hfailed n chunk s s' e hstep with hlog | hlog
            · rw [hlog]
              exact List.prefix_append (log s) _
            · rw [hlog]
              exact hone
        · next s' hstep =>
            have hrest := ih (n + 1) s'
            rwa [hdone n chunk s s' hstep, List.append_assoc] at hrest

/-- A loop broken by a check read a stop request at its last check. -/
theorem tornLoop_stopped {body : ℕ → χ → σ → σ × Option ε} (chunks : List χ) :
    ∀ n s, (tornLoop stop body n chunks s).stopped = true →
      ∃ m, (tornLoop stop body n chunks s).checks = m + 1 ∧ stop m = true := by
  induction chunks with
  | nil => exact fun _ _ h => (nomatch h)
  | cons chunk rest ih =>
      intro n s h
      unfold tornLoop at h ⊢
      by_cases hstop : stop n = true
      · rw [if_pos hstop]
        exact ⟨n, rfl, hstop⟩
      · rw [if_neg hstop] at h ⊢
        rcases hstep : body n chunk s with ⟨s', _ | e⟩
        · simp only [hstep] at h ⊢
          exact ih (n + 1) s' h
        · simp [hstep] at h

/-- Bodies that never fail, and no stop request: the loop is their fold. -/
theorem tornLoop_fold {body : ℕ → χ → σ → σ × Option ε} (step : χ → σ → σ)
    (hbody : ∀ n chunk s, body n chunk s = (step chunk s, none)) (chunks : List χ) :
    ∀ n s, tornLoop (fun _ => false) body n chunks s =
      ⟨chunks.foldl (fun s chunk => step chunk s) s, n + chunks.length, false, none⟩ := by
  induction chunks with
  | nil => exact fun _ _ => rfl
  | cons chunk rest ih =>
      intro n s
      have hcount : n + 1 + rest.length = n + (chunk :: rest).length := by
        rw [List.length_cons]
        omega
      unfold tornLoop
      simp only [Bool.false_eq_true, if_false, hbody, ih, hcount, List.foldl_cons]

/-- Bodies that never fail do not leave the loop by an error. -/
theorem tornLoop_error_none {body : ℕ → χ → σ → σ × Option ε}
    (hbody : ∀ n chunk s, (body n chunk s).2 = none) (chunks : List χ) :
    ∀ n s, (tornLoop stop body n chunks s).error = none := by
  induction chunks with
  | nil => exact fun _ _ => rfl
  | cons chunk rest ih =>
      intro n s
      have hok := hbody n chunk s
      unfold tornLoop
      split
      · rfl
      · split
        · next s' e hfailed => simp [hfailed] at hok
        · exact ih _ _

end TornLoop
