import Nebularr.SearchRuns

/-!
# The cooldown across rules

The ledger row that starts the cooldown of an item is written after the last
command of the visit.  Until then the item is held by the run that selected
it, and nothing tells another run so.  The cooldown holds as long as no run
selects what another one holds, and no visit drops what it has sent: then each
accepted command is on record or held, and an item selected again has been
past its cooldown at that moment.
-/

namespace Nebularr

namespace SearchWorld

/-- No item is in two accepted commands less than the shorter of the two
cooldowns apart. -/
def CooldownKept (w : SearchWorld) : Prop :=
  w.accepted.Pairwise fun e f => e.visit = f.visit → ∀ i, i ∈ e.items → i ∈ f.items →
    (min e.cooldownDays f.cooldownDays : ℕ) * daySeconds ≤ f.time - e.time

/-- A selection names each item once, and nothing that a run holds. -/
def SelectsFree (w : SearchWorld) (r : ℕ) (v : Visit) (c : Catalog) (tagIds : List Int) : Prop :=
  ∀ run, w.runs r = some run →
    (w.selection run v c tagIds).Nodup ∧
      ∀ i ∈ w.selection run v c tagIds, ∀ r', v.item i ∉ w.held r'

/-- No command of the visit has returned so far. -/
def NothingSent (w : SearchWorld) (r : ℕ) : Prop :=
  ∀ run p, w.runs r = some run → run.posting = some p →
    p.pending = slices commandSearchChunk p.items

/-- An attempt that the instance takes on is answered, and a command raises only
when no earlier one of its visit has returned. -/
def AttemptCounts (w : SearchWorld) (settings : ArrSettings) (r : ℕ) (attempt : CommandAttempt) :
    Prop :=
  ∀ run p, w.runs r = some run → run.posting = some p →
    let result := attempt.comesTo (commandRequest settings p.visit.entity) p.attempt
    (result.1 = true → result.2 = .returns) ∧ (result.2 = .raises → w.NothingSent r)

/-- Runs keep apart: a selection is of free items, no attempt that the instance
takes on goes unanswered, and a command raises only when nothing of its visit has
reached the instance. -/
def RunsApart (settings : ArrSettings) (w : SearchWorld) : SearchAction → Prop
  | .select r v c tagIds => w.SelectsFree r v c tagIds
  | .post r attempt => w.AttemptCounts settings r attempt
  | _ => True

/-- **Every accepted command is on record or held**, and what a run still has
to post was past its cooldown when it was selected. -/
structure Accounted (w : SearchWorld) : Prop where
  runIds : ∀ r run, w.runs r = some run → r < w.nextRunId
  searching : ∀ r run, w.runs r = some run → run.automation.rule.hasSearch = true
  exclusive : Exclusive w.held
  parts : ∀ r run p, w.runs r = some run → run.posting = some p →
    ∃ posted, slices commandSearchChunk p.items = posted ++ p.pending
  past : ∀ e ∈ w.accepted, e.time ≤ w.now
  onRecord : ∀ e ∈ w.accepted, ∀ i ∈ e.items,
    (∃ row, w.ledger.row (e.visit.item i) = some row ∧ e.time ≤ row.lastFiredAt) ∨
      ∃ r run p, w.runs r = some run ∧ run.posting = some p ∧ p.visit = e.visit ∧ i ∈ p.items ∧
        i ∉ p.pending.flatten
  cooled : ∀ r run p, w.runs r = some run → run.posting = some p → ∀ i ∈ p.pending.flatten,
    ∀ e ∈ w.accepted, e.visit = p.visit → i ∈ e.items →
      e.time + run.automation.cooldownDays * daySeconds < w.now
  distinct : ∀ e ∈ w.accepted, e.items.Nodup
  apart : w.accepted.Pairwise fun e f => e.visit = f.visit → ∀ i, i ∈ e.items → i ∈ f.items →
    e.time + f.cooldownDays * daySeconds < f.time

theorem Accounted.idle {now : Int} {ledger : ActionLedger} : Accounted (idle now ledger) where
  runIds := fun _ _ h => (nomatch h)
  searching := fun _ _ h => (nomatch h)
  exclusive := Exclusive.empty
  parts := fun _ _ _ h => (nomatch h)
  past := fun _ h => (nomatch h)
  onRecord := fun _ h => (nomatch h)
  cooled := fun _ _ _ h => (nomatch h)
  distinct := fun _ h => (nomatch h)
  apart := List.Pairwise.nil

variable {w : SearchWorld} {r : ℕ} {run : SearchRun} {p : Posting}

theorem held_of_posting (hrun : w.runs r = some run) (hp : run.posting = some p) :
    w.held r = p.items.map p.visit.item := by
  simp [held, hrun, hp]

/-- A run that posts holds each of its items once. -/
theorem Accounted.nodup_items (h : Accounted w) (hrun : w.runs r = some run)
    (hp : run.posting = some p) : p.items.Nodup := by
  have hheld := h.exclusive.nodup r
  rw [held_of_posting hrun hp] at hheld
  exact hheld.of_map

/-- What is still to be posted is part of what was selected. -/
theorem Accounted.pending_sublist (h : Accounted w) (hrun : w.runs r = some run)
    (hp : run.posting = some p) : p.pending.flatten.Sublist p.items := by
  obtain ⟨posted, hparts⟩ := h.parts r run p hrun hp
  have hitems : p.items = posted.flatten ++ p.pending.flatten := by
    rw [← List.flatten_append, ← hparts, flatten_slices]
  rw [hitems]
  exact List.sublist_append_right _ _

theorem Accounted.elapse (h : Accounted w) (seconds : ℕ) :
    Accounted { w with now := w.now + seconds } where
  runIds := h.runIds
  searching := h.searching
  exclusive := h.exclusive
  parts := h.parts
  past := fun e he => by
    have hpast := h.past e he
    show e.time ≤ w.now + seconds
    omega
  onRecord := h.onRecord
  cooled := fun r run p hrun hp i hi e he hvisit hie => by
    have hcooled := h.cooled r run p hrun hp i hi e he hvisit hie
    show _ < w.now + (seconds : Int)
    omega
  distinct := h.distinct
  apart := h.apart

/-- Replacing a run that has sent nothing of what it holds, by one that holds
nothing. -/
theorem Accounted.setRun_free (h : Accounted w) {next : Option SearchRun}
    (hunsent : w.NothingSent r) (hid : r < w.nextRunId)
    (hnext : ∀ run, next = some run →
      run.automation.rule.hasSearch = true ∧ run.posting = none) :
    Accounted (w.setRun r next) := by
  have hposting : ∀ r' run' p', (w.setRun r next).runs r' = some run' → run'.posting = some p' →
      r' ≠ r ∧ w.runs r' = some run' := by
    intro r' run' p' hrun' hp'
    rcases runs_setRun hrun' with ⟨rfl, hsome⟩ | hother
    · rw [(hnext run' hsome).2] at hp'
      cases hp'
    · exact hother
  refine ⟨?_, ?_, ?_, ?_, h.past, ?_, ?_, h.distinct, h.apart⟩
  · exact forall_runs_setRun (fun _ _ => hid) h.runIds
  · exact forall_runs_setRun (fun run' hsome => (hnext run' hsome).1) h.searching
  · refine exclusive_setRun h.exclusive ?_
    rw [held_setRun_self]
    cases hsome : next with
    | none => exact List.nil_sublist _
    | some run =>
        rw [Option.bind_some, (hnext run hsome).2]
        exact List.nil_sublist _
  · intro r' run' p' hrun' hp'
    exact h.parts r' run' p' (hposting r' run' p' hrun' hp').2 hp'
  · intro e he i hi
    rcases h.onRecord e he i hi with hrow | ⟨r', run', p', hrun', hp', hv', hi', hposted⟩
    · exact Or.inl hrow
    · right
      have hne : r' ≠ r := by
        rintro rfl
        rw [hunsent run' p' hrun' hp', flatten_slices] at hposted
        exact hposted hi'
      exact ⟨r', run', p', (runs_setRun_of_ne hne).trans hrun', hp', hv', hi', hposted⟩
  · intro r' run' p' hrun' hp'
    exact h.cooled r' run' p' (hposting r' run' p' hrun' hp').2 hp'

theorem Accounted.started (h : Accounted w) {cap : ℕ} {a : Automation}
    (hsearch : a.rule.hasSearch = true) : Accounted (w.started cap a) := by
  have hwider : Accounted { w with nextRunId := w.nextRunId + 1 } :=
    { h with runIds := fun r run hrun => Nat.lt_succ_of_lt (h.runIds r run hrun) }
  refine hwider.setRun_free ?_ (Nat.lt_succ_self _) ?_
  · intro run p hrun hp
    exact absurd (h.runIds _ run hrun) (Nat.lt_irrefl _)
  · intro run hrun
    obtain rfl := Option.some.inj hrun
    exact ⟨hsearch, rfl⟩

/-- **What is selected has cooled**: an item that nobody holds is on record, and
the query has passed over those whose cooldown is not over. -/
theorem Accounted.cooled_of_selection (h : Accounted w) (hrun : w.runs r = some run) {v : Visit}
    {c : Catalog} {tagIds : List Int} {i : Int} (hi : i ∈ w.selection run v c tagIds)
    (hunheld : ∀ r', v.item i ∉ w.held r') {e : AcceptedCommand} (he : e ∈ w.accepted)
    (hvisit : e.visit = v) (hie : i ∈ e.items) :
    e.time + (run.automation.cooldownDays : Int) * daySeconds < w.now := by
  rcases h.onRecord e he i hie with ⟨row, hrow, hfired⟩ |
    ⟨r₀, run₀, p₀, hrun₀, hp₀, hv₀, hi₀, -⟩
  · rw [hvisit] at hrow
    have hcooled := cooled_of_mem_searchSelection (h.searching r run hrun) rfl hi hrow
    simp only at hcooled
    omega
  · refine absurd ?_ (hunheld r₀)
    rw [held_of_posting hrun₀ hp₀, hv₀, hvisit]
    exact List.mem_map.mpr ⟨i, hi₀, rfl⟩

/-- **Selecting.**  Free items past their cooldown are taken. -/
theorem Accounted.selected (h : Accounted w) (hrun : w.runs r = some run)
    (hidle : run.posting = none) {v : Visit} {c : Catalog} {tagIds : List Int}
    (hfree : w.SelectsFree r v c tagIds) :
    Accounted (w.selected r run v (w.selection run v c tagIds)) := by
  obtain ⟨hnodup, hunheld⟩ := hfree run hrun
  have hid := h.runIds r run hrun
  have hsearch := h.searching r run hrun
  have hnone : ∀ run' p', w.runs r = some run' → run'.posting ≠ some p' := by
    intro run' p' hrun' hp'
    rw [hrun] at hrun'
    obtain rfl := Option.some.inj hrun'
    rw [hidle] at hp'
    cases hp'
  set items := w.selection run v c tagIds with hitems
  by_cases hempty : items = []
  · rw [SearchWorld.selected, if_pos hempty]
    refine h.setRun_free (fun run' p' hrun' hp' => absurd hp' (hnone run' p' hrun')) hid ?_
    intro run' hrun'
    obtain rfl := Option.some.inj hrun'
    exact ⟨hsearch, rfl⟩
  · rw [SearchWorld.selected, if_neg hempty]
    set p : Posting := ⟨v, items, slices commandSearchChunk items, 1⟩ with hp
    set run' : SearchRun := { run with posting := some p } with hrun'
    have hposting : ∀ r'' run'' p'', (w.setRun r (some run')).runs r'' = some run'' →
        run''.posting = some p'' →
        (r'' = r ∧ run'' = run' ∧ p'' = p) ∨ (r'' ≠ r ∧ w.runs r'' = some run'') := by
      intro r'' run'' p'' hrun'' hp''
      rcases runs_setRun hrun'' with ⟨rfl, hsome⟩ | hother
      · obtain rfl := Option.some.inj hsome
        exact Or.inl ⟨rfl, rfl, (Option.some.inj hp'').symm⟩
      · exact Or.inr hother
    refine ⟨?_, ?_, ?_, ?_, h.past, ?_, ?_, h.distinct, h.apart⟩
    · exact forall_runs_setRun (fun _ _ => hid) h.runIds
    · refine forall_runs_setRun (fun run'' hsome => ?_) h.searching
      obtain rfl := Option.some.inj hsome
      exact hsearch
    · have hself : (w.setRun r (some run')).held r = items.map v.item := held_setRun_self
      refine h.exclusive.take r (fun r'' hr => by rw [held_setRun_of_ne hr]) ?_ ?_
      · rw [hself]
        exact hnodup.map fun i i' heq => (Visit.item_inj heq).2
      · rw [hself]
        intro key hkey r''
        obtain ⟨i, hi, rfl⟩ := List.mem_map.mp hkey
        exact hunheld i hi r''
    · intro r'' run'' p'' hrun'' hp''
      rcases hposting r'' run'' p'' hrun'' hp'' with ⟨-, -, rfl⟩ | ⟨-, hold⟩
      · exact ⟨[], rfl⟩
      · exact h.parts r'' run'' p'' hold hp''
    · intro e he i hi
      rcases h.onRecord e he i hi with hrow | ⟨r'', run'', p'', hrun'', hp'', hrest⟩
      · exact Or.inl hrow
      · right
        have hne : r'' ≠ r := by
          rintro rfl
          exact hnone run'' p'' hrun'' hp''
        exact ⟨r'', run'', p'', (runs_setRun_of_ne hne).trans hrun'', hp'', hrest⟩
    · intro r'' run'' p'' hrun'' hp'' i hi e he hvisit hie
      rcases hposting r'' run'' p'' hrun'' hp'' with ⟨-, rfl, rfl⟩ | ⟨-, hold⟩
      · have hi : i ∈ items := by
          rwa [hp, flatten_slices] at hi
        exact h.cooled_of_selection hrun hi (hunheld i hi) he hvisit hie
      · exact h.cooled r'' run'' p'' hold hp'' i hi e he hvisit hie

/-- The next command of a visit shares no item with those after it. -/
theorem Accounted.next_chunk (h : Accounted w) (hrun : w.runs r = some run)
    (hp : run.posting = some p) {chunk : List Int} {rest : List (List Int)}
    (hpending : p.pending = chunk :: rest) :
    chunk.Nodup ∧ (∀ i ∈ chunk, i ∈ p.items) ∧ ∀ i ∈ chunk, i ∉ rest.flatten := by
  have hsub := h.pending_sublist hrun hp
  have hnodup := (h.nodup_items hrun hp).sublist hsub
  rw [hpending, List.flatten_cons] at hsub hnodup
  obtain ⟨hchunk, -, hdisjoint⟩ := List.nodup_append.mp hnodup
  exact ⟨hchunk, fun i hi => hsub.subset (List.mem_append_left _ hi),
    fun i hi hi' => hdisjoint i hi i hi' rfl⟩

/-- No two runs have one item under way. -/
theorem Accounted.posting_unique (h : Accounted w) (hrun : w.runs r = some run)
    (hp : run.posting = some p) {r' : ℕ} {run' : SearchRun} {p' : Posting}
    (hrun' : w.runs r' = some run') (hp' : run'.posting = some p') (hvisit : p.visit = p'.visit)
    {i : Int} (hi : i ∈ p.items) (hi' : i ∈ p'.items) : r' = r := by
  refine h.exclusive.unique r' r (p.visit.item i) ?_ ?_
  · rw [held_of_posting hrun' hp', hvisit]
    exact List.mem_map_of_mem hi'
  · rw [held_of_posting hrun hp]
    exact List.mem_map_of_mem hi

/-- **A command is answered.**  It joins the accepted ones, and its items leave
those that are still to be posted. -/
theorem Accounted.answered (h : Accounted w) (hrun : w.runs r = some run)
    (hp : run.posting = some p) {chunk : List Int} {rest : List (List Int)}
    (hpending : p.pending = chunk :: rest) :
    Accounted (w.posted r run p chunk rest (true, .returns)) := by
  have hchunk : ∀ i ∈ chunk, i ∈ p.pending.flatten := by
    intro i hi
    rw [hpending, List.flatten_cons]
    exact List.mem_append_left _ hi
  have hrest : ∀ i ∈ rest.flatten, i ∈ p.pending.flatten := by
    intro i hi
    rw [hpending, List.flatten_cons]
    exact List.mem_append_right _ hi
  obtain ⟨hnodup, hitems, hdisjoint⟩ := h.next_chunk hrun hp hpending
  set p' : Posting := { p with pending := rest, attempt := 1 } with hp'
  set run' : SearchRun := { run with posting := some p' } with hrun'
  have hself : (w.posted r run p chunk rest (true, .returns)).runs r = some run' :=
    Function.update_self _ _ _
  have haccepted : (w.posted r run p chunk rest (true, .returns)).accepted =
      w.accepted ++ [⟨w.now, p.visit, chunk, run.automation.cooldownDays⟩] := rfl
  have hnow : (w.posted r run p chunk rest (true, .returns)).now = w.now := rfl
  refine ⟨?_, ?_, ?_, ?_, ?_, ?_, ?_, ?_, ?_⟩
  · exact forall_runs_setRun (fun _ _ => h.runIds r run hrun) h.runIds
  · refine forall_runs_setRun (fun run'' hsome => ?_) h.searching
    obtain rfl := Option.some.inj hsome
    exact h.searching r run hrun
  · have hsame : (w.posted r run p chunk rest (true, .returns)).held r = w.held r := by
      rw [held_of_posting hself rfl, held_of_posting hrun hp]
    exact exclusive_setRun h.exclusive (hsame ▸ List.Sublist.refl _)
  · intro r'' run'' p'' hrun'' hp''
    rcases runs_posted hrun'' with ⟨-, rfl⟩ | ⟨-, hold⟩
    · obtain rfl := Option.some.inj hp''
      obtain ⟨posted, hparts⟩ := h.parts r run p hrun hp
      exact ⟨posted ++ [chunk], by rw [hparts, hpending, List.append_assoc]; rfl⟩
    · exact h.parts r'' run'' p'' hold hp''
  · intro e he
    rcases mem_accepted_posted.mp he with he | rfl
    · exact h.past e he
    · exact Int.le_refl _
  · intro e he i hi
    rcases mem_accepted_posted.mp he with he | rfl
    · rcases h.onRecord e he i hi with hrow | ⟨r'', run'', p'', hrun'', hp'', hv, hitem, hposted⟩
      · exact Or.inl hrow
      · right
        by_cases hr : r'' = r
        · subst hr
          rw [hrun] at hrun''
          obtain rfl := Option.some.inj hrun''
          rw [hp] at hp''
          obtain rfl := Option.some.inj hp''
          exact ⟨r'', run', p', hself, rfl, hv, hitem, fun hlater => hposted (hrest i hlater)⟩
        · exact ⟨r'', run'', p'', (runs_setRun_of_ne hr).trans hrun'', hp'', hv, hitem, hposted⟩
    · right
      exact ⟨r, run', p', hself, rfl, rfl, hitems i hi, hdisjoint i hi⟩
  · intro r'' run'' p'' hrun'' hp'' i hi e he hvisit hie
    rw [hnow]
    rcases runs_posted hrun'' with ⟨-, rfl⟩ | ⟨hne, hold⟩
    · obtain rfl := Option.some.inj hp''
      rcases mem_accepted_posted.mp he with he | rfl
      · exact h.cooled r run p hrun hp i (hrest i hi) e he hvisit hie
      · exact absurd hi (hdisjoint i hie)
    · rcases mem_accepted_posted.mp he with he | rfl
      · exact h.cooled r'' run'' p'' hold hp'' i hi e he hvisit hie
      · have hitem := (h.pending_sublist hold hp'').subset hi
        exact absurd (h.posting_unique hrun hp hold hp'' hvisit (hitems i hie) hitem) hne
  · intro e he
    rcases mem_accepted_posted.mp he with he | rfl
    · exact h.distinct e he
    · exact hnodup
  · rw [haccepted, List.pairwise_append]
    refine ⟨h.apart, List.pairwise_singleton _ _, ?_⟩
    intro e he f hf hvisit i hie hif
    obtain rfl := List.mem_singleton.mp hf
    exact h.cooled r run p hrun hp i (hchunk i hif) e he hvisit hie

/-- The same commands, at another attempt. -/
theorem held_retried (hrun : w.runs r = some run) (hp : run.posting = some p) (n r' : ℕ) :
    (w.setRun r (some { run with posting := some { p with attempt := n } })).held r' =
      w.held r' := by
  by_cases hr : r' = r
  · subst hr
    rw [held_setRun_self, held_of_posting hrun hp]
    rfl
  · exact held_setRun_of_ne hr

/-- **A command is tried again.**  Nothing has been taken on, and the run holds what
it did. -/
theorem Accounted.retried (h : Accounted w) (hrun : w.runs r = some run)
    (hp : run.posting = some p) (n : ℕ) :
    Accounted (w.setRun r (some { run with posting := some { p with attempt := n } })) := by
  set p' : Posting := { p with attempt := n } with hp'
  set run' : SearchRun := { run with posting := some p' } with hrun'
  have hself : (w.setRun r (some run')).runs r = some run' := Function.update_self _ _ _
  have hheld : (w.setRun r (some run')).held = w.held := funext (held_retried hrun hp n)
  have hposting : ∀ P : ℕ → SearchRun → Posting → Prop, P r run' p' →
      (∀ r'' run'' p'', w.runs r'' = some run'' → run''.posting = some p'' → P r'' run'' p'') →
      ∀ r'' run'' p'', (w.setRun r (some run')).runs r'' = some run'' →
        run''.posting = some p'' → P r'' run'' p'' := by
    intro P hhere hothers
    refine forall_runs_setRun (P := fun r'' run'' => ∀ p'', run''.posting = some p'' →
      P r'' run'' p'')
      ?_ (fun r'' run'' hold p'' => hothers r'' run'' p'' hold) |>
        fun hall r'' run'' p'' hrun'' hp'' =>
        hall r'' run'' hrun'' p'' hp''
    intro run'' hsome p'' hp''
    obtain rfl := Option.some.inj hsome
    obtain rfl := Option.some.inj hp''
    exact hhere
  refine ⟨?_, ?_, hheld ▸ h.exclusive, ?_, h.past, ?_, ?_, h.distinct, h.apart⟩
  · exact forall_runs_setRun (fun _ _ => h.runIds r run hrun) h.runIds
  · refine forall_runs_setRun (fun run'' hsome => ?_) h.searching
    obtain rfl := Option.some.inj hsome
    exact h.searching r run hrun
  · exact hposting
      (fun _ _ p'' => ∃ posted, slices commandSearchChunk p''.items = posted ++ p''.pending)
      (h.parts r run p hrun hp) h.parts
  · intro e he i hi
    rcases h.onRecord e he i hi with hrow | ⟨r'', run'', p'', hrun'', hp'', hv, hitem, hposted⟩
    · exact Or.inl hrow
    · right
      by_cases hr : r'' = r
      · subst hr
        rw [hrun] at hrun''
        obtain rfl := Option.some.inj hrun''
        rw [hp] at hp''
        obtain rfl := Option.some.inj hp''
        exact ⟨r'', run', p', hself, rfl, hv, hitem, hposted⟩
      · exact ⟨r'', run'', p'', (runs_setRun_of_ne hr).trans hrun'', hp'', hv, hitem, hposted⟩
  · exact hposting (fun _ run'' p'' => ∀ i ∈ p''.pending.flatten, ∀ e ∈ w.accepted,
      e.visit = p''.visit → i ∈ e.items →
        e.time + run''.automation.cooldownDays * daySeconds < w.now)
      (h.cooled r run p hrun hp) h.cooled

/-- What an attempt that counts does to a run: the command is taken on and returns,
or nothing is taken on and it is tried again or ends a visit that sent nothing. -/
theorem posted_cases {settings : ArrSettings} {attempt : CommandAttempt}
    (hcounts : w.AttemptCounts settings r attempt) (hrun : w.runs r = some run)
    (hp : run.posting = some p) (chunk : List Int) (rest : List (List Int)) :
    let w' := w.posted r run p chunk rest
      (attempt.comesTo (commandRequest settings p.visit.entity) p.attempt)
    w' = w.posted r run p chunk rest (true, .returns) ∨
      w' = w.setRun r (some { run with posting := some { p with attempt := p.attempt + 1 } }) ∨
      (w.NothingSent r ∧ w' = w.setRun r (some { run with posting := none })) := by
  obtain ⟨hanswered, hunsent⟩ := hcounts run p hrun hp
  have hreturned : (attempt.comesTo (commandRequest settings p.visit.entity) p.attempt).2 =
      .returns → (attempt.comesTo (commandRequest settings p.visit.entity) p.attempt).1 = true :=
    CommandAttempt.accepted_of_returns
  rcases hresult : attempt.comesTo (commandRequest settings p.visit.entity) p.attempt with
    ⟨taken, ending⟩
  rw [hresult] at hanswered hunsent hreturned
  cases taken with
  | true =>
      obtain rfl : ending = .returns := hanswered rfl
      exact Or.inl rfl
  | false =>
      cases ending with
      | returns => exact absurd (hreturned rfl) Bool.false_ne_true
      | repeats => exact Or.inr (Or.inl rfl)
      | raises => exact Or.inr (Or.inr ⟨hunsent rfl, rfl⟩)

/-- **A visit is recorded.**  Its items go from the run to the ledger. -/
theorem Accounted.recorded (h : Accounted w) (hrun : w.runs r = some run)
    (hp : run.posting = some p) : Accounted (w.recorded r run p) := by
  have hposting : ∀ r'' run'' p'', (w.recorded r run p).runs r'' = some run'' →
      run''.posting = some p'' → w.runs r'' = some run'' := by
    intro r'' run'' p'' hrun'' hp''
    rcases runs_setRun hrun'' with ⟨-, hsome⟩ | ⟨-, hold⟩
    · obtain rfl := Option.some.inj hsome
      cases hp''
    · exact hold
  have hrow : ∀ key, (w.recorded r run p).ledger.row key =
      if key ∈ p.items.map p.visit.item then some ⟨w.now, run.automation.id, r⟩
      else w.ledger.row key := fun key => row_writeLedger
  refine ⟨?_, ?_, ?_, ?_, h.past, ?_, ?_, h.distinct, h.apart⟩
  · exact forall_runs_setRun (fun _ _ => h.runIds r run hrun) h.runIds
  · refine forall_runs_setRun (fun run'' hsome => ?_) h.searching
    obtain rfl := Option.some.inj hsome
    exact h.searching r run hrun
  · refine exclusive_setRun h.exclusive ?_
    rw [held_setRun_self]
    exact List.nil_sublist _
  · intro r'' run'' p'' hrun'' hp''
    exact h.parts r'' run'' p'' (hposting r'' run'' p'' hrun'' hp'') hp''
  · intro e he i hi
    by_cases hwritten : e.visit.item i ∈ p.items.map p.visit.item
    · exact Or.inl ⟨_, by rw [hrow, if_pos hwritten], h.past e he⟩
    · rcases h.onRecord e he i hi with ⟨row, hold, hfired⟩ | ⟨r'', run'', p'', hrun'', hp'', hv,
        hitem, hposted⟩
      · exact Or.inl ⟨row, by rw [hrow, if_neg hwritten, hold], hfired⟩
      · right
        have hne : r'' ≠ r := by
          rintro rfl
          rw [hrun] at hrun''
          obtain rfl := Option.some.inj hrun''
          rw [hp] at hp''
          obtain rfl := Option.some.inj hp''
          exact hwritten (List.mem_map.mpr ⟨i, hitem, by rw [hv]⟩)
        exact ⟨r'', run'', p'', (runs_setRun_of_ne hne).trans hrun'', hp'', hv, hitem, hposted⟩
  · intro r'' run'' p'' hrun'' hp''
    exact h.cooled r'' run'' p'' (hposting r'' run'' p'' hrun'' hp'') hp''

theorem Accounted.step (h : Accounted w) {cap : ℕ} {settings : ArrSettings} {act : SearchAction}
    {w' : SearchWorld} (hapart : w.RunsApart settings act)
    (hstep : w.step cap settings act = some w') :
    Accounted w' := by
  cases act with
  | elapse seconds =>
      obtain rfl := Option.some.inj hstep
      exact h.elapse seconds
  | start a =>
      obtain ⟨hsearch, rfl⟩ := step_start hstep
      exact h.started hsearch
  | select r v c tagIds =>
      obtain ⟨run, hrun, hidle, rfl⟩ := step_select hstep
      exact h.selected hrun hidle hapart
  | post r attempt =>
      obtain ⟨run, p, chunk, rest, hrun, hp, hpending, rfl⟩ := step_post hstep
      rcases posted_cases hapart hrun hp chunk rest with heq | heq | ⟨hunsent, heq⟩
      · rw [heq]
        exact h.answered hrun hp hpending
      · rw [heq]
        exact h.retried hrun hp _
      · rw [heq]
        refine h.setRun_free hunsent (h.runIds r run hrun) ?_
        intro run' hrun'
        obtain rfl := Option.some.inj hrun'
        exact ⟨h.searching r run hrun, rfl⟩
  | record r =>
      obtain ⟨run, p, hrun, hp, -, rfl⟩ := step_record hstep
      exact h.recorded hrun hp
  | finish r =>
      obtain ⟨run, hrun, hidle, rfl⟩ := step_finish hstep
      refine h.setRun_free ?_ (h.runIds r run hrun) (fun _ hnone => nomatch hnone)
      intro run' p' hrun' hp'
      rw [hrun] at hrun'
      obtain rfl := Option.some.inj hrun'
      rw [hidle] at hp'
      cases hp'

/-- Runs that keep apart keep their commands on record. -/
theorem accounted_of_reaches {cap : ℕ} {settings : ArrSettings} {now : Int} {ledger : ActionLedger}
    (h : Reaches (SearchWorld.step cap settings) (RunsApart settings) (SearchWorld.idle now ledger)
      w) :
    Accounted w :=
  h.invariant Accounted.idle fun _ _ _ hs hapart hstep => hs.step hapart hstep

/-- **The cooldown holds across rules** in every run in which no selection
takes what another run holds or names an item twice, no attempt that an instance
takes on goes unanswered, and no command raises after its visit has reached the
instance. -/
theorem cooldown_kept {cap : ℕ} {settings : ArrSettings} {now : Int} {ledger : ActionLedger}
    (h : Reaches (SearchWorld.step cap settings) (RunsApart settings) (SearchWorld.idle now ledger)
      w) :
    w.CooldownKept := by
  refine (accounted_of_reaches h).apart.imp ?_
  intro e f hef hvisit i hie hif
  have hlt := hef hvisit i hie hif
  have hmin : min e.cooldownDays f.cooldownDays ≤ f.cooldownDays := Nat.min_le_right _ _
  unfold daySeconds at hlt ⊢
  omega

/-! ## Two rules at once -/

end SearchWorld

/-- A live missing-content hunter with an id of its own. -/
def hunter (id : Int) : Automation where
  id := id
  rule := missingHunter
  dryRun := false
  budgetPerRun := 10
  cooldownDays := 7
  dubStatusSeen := fun _ => none
  budgetBounds := defaultBudget_bounds
  cooldownBounds := defaultCooldown_bounds

namespace SearchWorld

/-- A run selects the one missing movie of an instance. -/
def selectMovie (r : ℕ) : SearchAction :=
  .select r ⟨.movie, "default"⟩ (missingMovies "default" [1]) []

/-- A run that starts on an empty ledger selects it alone. -/
theorem selectMovie_apart {cap : ℕ} (settings : ArrSettings) (hcap : 0 < cap) :
    ((SearchWorld.idle 0 KeyedTable.empty).started cap (hunter 1)).RunsApart settings
      (selectMovie 1) := by
  intro run hrun
  obtain rfl := Option.some.inj hrun
  have hleft : 0 < min 10 (cap - countRecentSearches 0 KeyedTable.empty) := by
    have hnone : countRecentSearches 0 KeyedTable.empty = 0 := rfl
    omega
  have hone : (compileCandidates missingHunter.toRuleParams .movie missingHunter.primarySense
      (missingMovies "default" [1]) KeyedTable.empty ⟨"default", 0, 7, []⟩).ordered.length = 1 := by
    decide +kernel
  have hitems : ((SearchWorld.idle 0 KeyedTable.empty).started cap (hunter 1)).selection
      ⟨hunter 1, min 10 (cap - countRecentSearches 0 KeyedTable.empty), none⟩
      ⟨.movie, "default"⟩ (missingMovies "default" [1]) [] = [1] := by
    show (pruned (hunter 1) ((compileCandidates missingHunter.toRuleParams .movie
      missingHunter.primarySense (missingMovies "default" [1]) KeyedTable.empty
      ⟨"default", 0, 7, []⟩).ordered.take (min 10
        (cap - countRecentSearches 0 KeyedTable.empty)))).map CandidateRow.sourceId = [1]
    rw [List.take_of_length_le (hone.trans_le hleft)]
    decide +kernel
  refine ⟨?_, fun i _ r => ?_⟩
  · exact (congrArg List.Nodup hitems).mpr (List.nodup_singleton 1)
  · by_cases hr : r = 1 <;> simp [held, started, setRun, SearchWorld.idle, hr]

/-- Both rules select the movie before either records it. -/
theorem overlapping_rules_search_twice :
    ¬ ∀ (cap : ℕ) (settings : ArrSettings) (now : Int) (ledger : ActionLedger) (w : SearchWorld),
      Reachable (SearchWorld.step cap settings) (SearchWorld.idle now ledger) w →
        w.CooldownKept := by
  intro h
  have hboth : (replay (SearchWorld.step 100 ⟨3, id⟩)
      [.start (hunter 1), .start (hunter 2), selectMovie 1, selectMovie 2, .post 1 .answered,
        .post 2 .answered] (SearchWorld.idle 0 KeyedTable.empty)).map SearchWorld.accepted =
      some [⟨0, ⟨.movie, "default"⟩, [1], 7⟩, ⟨0, ⟨.movie, "default"⟩, [1], 7⟩] := by
    decide +kernel
  obtain ⟨w, hw, haccepted⟩ := Option.map_eq_some_iff.mp hboth
  have hkept := h 100 ⟨3, id⟩ 0 KeyedTable.empty w (reachable_of_replay hw)
  rw [CooldownKept, haccepted] at hkept
  have hpair := List.rel_of_pairwise_cons hkept (List.mem_singleton.mpr rfl) rfl 1
    (by decide) (by decide)
  revert hpair
  decide

/-- An attempt counts in a state in which what it comes to is known. -/
theorem attemptCounts_of {w : SearchWorld} {r : ℕ} {run : SearchRun} {p : Posting}
    {settings : ArrSettings} {attempt : CommandAttempt} (hrun : w.runs r = some run)
    (hp : run.posting = some p)
    (h : let result := attempt.comesTo (commandRequest settings p.visit.entity) p.attempt
      (result.1 = true → result.2 = .returns) ∧ result.2 ≠ .raises) :
    w.AttemptCounts settings r attempt := by
  intro run' p' hrun' hp'
  obtain rfl := Option.some.inj (hrun.symm.trans hrun')
  obtain rfl := Option.some.inj (hp.symm.trans hp')
  exact ⟨h.1, fun hraises => absurd hraises h.2⟩

/-- A selection is free while no run so far is posting. -/
theorem Accounted.selectsFree {w : SearchWorld} (h : Accounted w) {r : ℕ} {run : SearchRun}
    {v : Visit} {c : Catalog} (tagIds : List Int) (hrun : w.runs r = some run)
    (hnodup : (w.selection run v c tagIds).Nodup) (hidle : ∀ r' < w.nextRunId, w.held r' = []) :
    w.SelectsFree r v c tagIds := by
  intro run' hrun'
  obtain rfl := Option.some.inj (hrun.symm.trans hrun')
  refine ⟨hnodup, fun i _ r' hheld => ?_⟩
  by_cases hid : r' < w.nextRunId
  · rw [hidle r' hid] at hheld
    cases hheld
  · cases hrun'' : w.runs r' with
    | none =>
        rw [held, hrun''] at hheld
        cases hheld
    | some run'' => exact hid (h.runIds r' run'' hrun'')

/-- The first attempt does not arrive, the second one does; eight days later
another rule searches the movie again. -/
theorem later_rule_keeps_cooldown :
    ∃ w, replay (SearchWorld.step 100 ⟨3, id⟩)
        [.start (hunter 1), selectMovie 1, .post 1 .undelivered, .post 1 .answered, .record 1,
          .finish 1, .elapse 691200, .start (hunter 2), selectMovie 2, .post 2 .answered]
        (SearchWorld.idle 0 KeyedTable.empty) = some w ∧
      w.accepted = [⟨0, ⟨.movie, "default"⟩, [1], 7⟩, ⟨691200, ⟨.movie, "default"⟩, [1], 7⟩] ∧
      w.CooldownKept := by
  have hfirst : Reaches (SearchWorld.step 100 ⟨3, id⟩) (RunsApart ⟨3, id⟩)
      (SearchWorld.idle 0 KeyedTable.empty) _ :=
    (((((((Reaches.refl.tail (show RunsApart _ _ (.start (hunter 1)) from trivial) rfl).tail
      (selectMovie_apart ⟨3, id⟩ (by decide)) rfl).tail
      (show RunsApart _ _ (.post 1 .undelivered) from
        attemptCounts_of rfl rfl (by decide)) rfl).tail
      (show RunsApart _ _ (.post 1 .answered) from attemptCounts_of rfl rfl (by decide)) rfl).tail
      (show RunsApart _ _ (.record 1) from trivial) rfl).tail
      (show RunsApart _ _ (.finish 1) from trivial) rfl).tail
      (show RunsApart _ _ (.elapse 691200) from trivial) rfl).tail
      (show RunsApart _ _ (.start (hunter 2)) from trivial) rfl
  have hfree := (accounted_of_reaches hfirst).selectsFree (r := 2) (v := ⟨.movie, "default"⟩)
    (c := missingMovies "default" [1]) [] rfl (by decide +kernel) (by decide +kernel)
  have hsecond := (hfirst.tail (show RunsApart _ _ (selectMovie 2) from hfree) rfl).tail
    (show RunsApart _ _ (.post 2 .answered) from attemptCounts_of rfl rfl (by decide)) rfl
  exact ⟨_, rfl, by decide +kernel, cooldown_kept hsecond⟩

end SearchWorld

end Nebularr
