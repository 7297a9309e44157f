import Nebularr.SearchCooldown

/-!
# The daily cap

A run reads what the cap has left once, and the ledger it counts in has a row
for an item only after the item's visit.  When no other run has allowance left
at that moment, and runs keep apart besides, then what the last day accepted
is in the ledger, item for item, and the cap bounds it together with what the
one spending run may still send.
-/

namespace Nebularr

/-- What a run may still send. -/
def SearchRun.unspent (run : SearchRun) : ℕ :=
  run.posting.elim run.remaining fun p => run.remaining - p.items.length + p.pending.flatten.length

/-- The items of the commands that satisfy a test. -/
def itemsWhere (test : AcceptedCommand → Bool) (accepted : List AcceptedCommand) : ℕ :=
  ((accepted.filter test).map fun e => e.items.length).sum

/-- One more command counts if it passes the test. -/
theorem itemsWhere_append {test : AcceptedCommand → Bool} {accepted : List AcceptedCommand}
    {e : AcceptedCommand} :
    itemsWhere test (accepted ++ [e]) =
      itemsWhere test accepted + if test e = true then e.items.length else 0 := by
  by_cases h : test e = true <;> simp [itemsWhere, List.filter_append, h]

/-- A test that lets more through counts more. -/
theorem itemsWhere_mono {test test' : AcceptedCommand → Bool} {accepted : List AcceptedCommand}
    (h : ∀ e ∈ accepted, test e = true → test' e = true) :
    itemsWhere test accepted ≤ itemsWhere test' accepted := by
  induction accepted with
  | nil => exact Nat.le_refl _
  | cons e rest ih =>
      have htail := ih fun e' he' => h e' (List.mem_cons_of_mem e he')
      have hhead := h e List.mem_cons_self
      unfold itemsWhere at htail ⊢
      by_cases htest : test e = true
      · have htest' := hhead htest
        simp only [List.filter_cons, htest, htest', if_true, List.map_cons, List.sum_cons]
        omega
      · by_cases htest' : test' e = true
        · simp only [List.filter_cons, htest, htest', if_true, List.map_cons, List.sum_cons]
          simp only [Bool.false_eq_true, if_false]
          omega
        · simpa [List.filter_cons, htest, htest'] using htail

namespace SearchWorld

variable (w : SearchWorld)

/-- The items accepted in the last 24 hours. -/
def recent : ℕ := itemsWhere (fun e => w.now - daySeconds ≤ e.time) w.accepted

/-- The items accepted in the 24 hours up to a moment. -/
def acceptedWithinDay (upTo : Int) : ℕ :=
  itemsWhere (fun e => decide (upTo - daySeconds ≤ e.time) && decide (e.time ≤ upTo)) w.accepted

/-- A window that is not over yet holds what is recent, at most. -/
theorem acceptedWithinDay_le_recent {upTo : Int} (h : w.now ≤ upTo) :
    w.acceptedWithinDay upTo ≤ w.recent := by
  refine itemsWhere_mono fun e _ htest => decide_eq_true ?_
  have hstart : upTo - daySeconds ≤ e.time := of_decide_eq_true (Bool.and_eq_true_iff.mp htest).1
  omega

/-- In no window of 24 hours do instances accept more than the cap. -/
def CapKept (cap : ℕ) : Prop := ∀ upTo, w.acceptedWithinDay upTo ≤ cap

/-- Runs keep apart, and none starts while another one has allowance left. -/
def AllowanceApart (settings : ArrSettings) (w : SearchWorld) : SearchAction → Prop
  | .start _ => ∀ r run, w.runs r = some run → run.remaining = 0
  | act => w.RunsApart settings act

/-- **The cap covers what was accepted and what may still be sent.** -/
structure Capped (cap : ℕ) (w : SearchWorld) : Prop where
  accounted : Accounted w
  fits : ∀ r run p, w.runs r = some run → run.posting = some p →
    p.items ≠ [] ∧ p.items.length ≤ run.remaining
  lone : ∀ r r' run run', w.runs r = some run → w.runs r' = some run' → 0 < run.remaining →
    0 < run'.remaining → r = r'
  cooldowns : ∀ e ∈ w.accepted, 1 ≤ e.cooldownDays
  recentFits : w.recent ≤ cap
  reserved : ∀ r run, w.runs r = some run → w.recent + run.unspent ≤ cap
  windows : w.CapKept cap

/-- Before the first run nothing is spent. -/
theorem Capped.idle {cap : ℕ} {now : Int} {ledger : ActionLedger} :
    Capped cap (SearchWorld.idle now ledger) where
  accounted := Accounted.idle
  fits := fun _ _ _ h => (nomatch h)
  lone := fun _ _ _ _ h => (nomatch h)
  cooldowns := fun _ h => (nomatch h)
  recentFits := Nat.zero_le _
  reserved := fun _ _ h => (nomatch h)
  windows := fun _ => Nat.zero_le _

variable {w : SearchWorld} {cap r : ℕ} {run : SearchRun} {p : Posting}

/-- Commands of the last day share no item. -/
theorem Capped.nodup_recentKeys (h : Capped cap w) :
    ((w.accepted.filter fun e => w.now - daySeconds ≤ e.time).flatMap fun e =>
      e.items.map e.visit.item).Nodup := by
  rw [List.nodup_flatMap]
  constructor
  · intro e he
    have hmem := (List.mem_filter.mp he).1
    exact (h.accounted.distinct e hmem).map fun i i' heq => (Visit.item_inj heq).2
  · have hapart := h.accounted.apart.sublist
      (List.filter_sublist (p := fun e => decide (w.now - daySeconds ≤ e.time)))
    refine hapart.imp_of_mem ?_
    intro e f he hf hef key hkey hkey'
    obtain ⟨i, hi, rfl⟩ := List.mem_map.mp hkey
    obtain ⟨i', hi', heq⟩ := List.mem_map.mp hkey'
    obtain ⟨hvisit, rfl⟩ := Visit.item_inj heq
    have hlt := hef hvisit.symm i' hi hi'
    obtain ⟨hmem, hlate⟩ := List.mem_filter.mp hf
    have hrecent := of_decide_eq_true (List.mem_filter.mp he).2
    have hpast := h.accounted.past f hmem
    have hcooldown := h.cooldowns f hmem
    unfold daySeconds at hlt hrecent
    omega

/-- **While nobody posts, the ledger counts what the last day accepted.** -/
theorem Capped.recent_le_count (h : Capped cap w)
    (hidle : ∀ r run p, w.runs r = some run → run.posting ≠ some p) :
    w.recent ≤ countRecentSearches w.now w.ledger := by
  have hlength : w.recent = ((w.accepted.filter fun e => w.now - daySeconds ≤ e.time).flatMap
      fun e => e.items.map e.visit.item).length := by
    simp [recent, itemsWhere, List.length_flatMap]
  rw [hlength]
  refine length_le_countRecentSearches h.nodup_recentKeys ?_
  intro key hkey
  obtain ⟨e, he, hkey⟩ := List.mem_flatMap.mp hkey
  obtain ⟨i, hi, rfl⟩ := List.mem_map.mp hkey
  obtain ⟨hmem, hlate⟩ := List.mem_filter.mp he
  rcases h.accounted.onRecord e hmem i hi with ⟨row, hrow, hfired⟩ | ⟨r, run, p, hrun, hp, -⟩
  · exact ⟨row, hrow, by have hlate := of_decide_eq_true hlate; omega⟩
  · exact absurd hp (hidle r run p hrun)

/-- A run without allowance has nothing under way. -/
theorem Capped.posting_of_spent (h : Capped cap w) (hrun : w.runs r = some run)
    (hspent : run.remaining = 0) : run.posting = none ∧ run.unspent = 0 := by
  cases hp : run.posting with
  | none => exact ⟨rfl, by simp [SearchRun.unspent, hp, hspent]⟩
  | some p =>
      obtain ⟨hne, hfits⟩ := h.fits r run p hrun hp
      have hpos := List.length_pos_of_ne_nil hne
      omega

/-- When one run has allowance left, the others have none. -/
theorem Capped.others_spent (h : Capped cap w) (hrun : w.runs r = some run)
    (hleft : 0 < run.remaining) {r' : ℕ} {run' : SearchRun} (hne : r' ≠ r)
    (hrun' : w.runs r' = some run') : run'.remaining = 0 := by
  by_contra hpos
  exact hne (h.lone r' r run' run hrun' hrun (Nat.pos_of_ne_zero hpos) hleft)

/-- Replacing a run, with the clock and the accepted commands as they were. -/
theorem Capped.replace (h : Capped cap w) {w' : SearchWorld} {next : Option SearchRun}
    (hacc : Accounted w') (hnow : w'.now = w.now) (haccepted : w'.accepted = w.accepted)
    (hruns : w'.runs = Function.update w.runs r next)
    (hnext : ∀ run', next = some run' →
      (∀ p, run'.posting = some p → p.items ≠ [] ∧ p.items.length ≤ run'.remaining) ∧
        w.recent + run'.unspent ≤ cap ∧
        (0 < run'.remaining → ∀ r' run'', r' ≠ r → w.runs r' = some run'' →
          run''.remaining = 0)) : Capped cap w' := by
  have hcases : ∀ r' run', w'.runs r' = some run' →
      (r' = r ∧ next = some run') ∨ (r' ≠ r ∧ w.runs r' = some run') := by
    intro r' run' hrun'
    rw [hruns] at hrun'
    exact runs_setRun hrun'
  have hrecent : w'.recent = w.recent := by
    rw [recent, recent, hnow, haccepted]
  have hwithin : ∀ upTo, w'.acceptedWithinDay upTo = w.acceptedWithinDay upTo := by
    intro upTo
    rw [acceptedWithinDay, acceptedWithinDay, haccepted]
  refine ⟨hacc, ?_, ?_, ?_, ?_, ?_, ?_⟩
  · intro r' run' p' hrun' hp'
    rcases hcases r' run' hrun' with ⟨-, hsome⟩ | ⟨-, hold⟩
    · exact (hnext run' hsome).1 p' hp'
    · exact h.fits r' run' p' hold hp'
  · intro r₁ r₂ run₁ run₂ hrun₁ hrun₂ hleft₁ hleft₂
    rcases hcases r₁ run₁ hrun₁ with ⟨rfl, hsome₁⟩ | ⟨hne₁, hold₁⟩
    · rcases hcases r₂ run₂ hrun₂ with ⟨rfl, -⟩ | ⟨hne₂, hold₂⟩
      · rfl
      · have hspent := (hnext run₁ hsome₁).2.2 hleft₁ r₂ run₂ hne₂ hold₂
        omega
    · rcases hcases r₂ run₂ hrun₂ with ⟨rfl, hsome₂⟩ | ⟨-, hold₂⟩
      · have hspent := (hnext run₂ hsome₂).2.2 hleft₂ r₁ run₁ hne₁ hold₁
        omega
      · exact h.lone r₁ r₂ run₁ run₂ hold₁ hold₂ hleft₁ hleft₂
  · rw [haccepted]
    exact h.cooldowns
  · rw [hrecent]
    exact h.recentFits
  · intro r' run' hrun'
    rw [hrecent]
    rcases hcases r' run' hrun' with ⟨-, hsome⟩ | ⟨-, hold⟩
    · exact (hnext run' hsome).2.1
    · exact h.reserved r' run' hold
  · intro upTo
    rw [hwithin]
    exact h.windows upTo

/-- Time passing spends nothing. -/
theorem Capped.elapse (h : Capped cap w) (seconds : ℕ) :
    Capped cap { w with now := w.now + seconds } := by
  have hrecent : SearchWorld.recent { w with now := w.now + seconds } ≤ w.recent := by
    refine itemsWhere_mono fun e _ he => ?_
    have he := of_decide_eq_true he
    exact decide_eq_true (by simp only at he; omega)
  refine ⟨h.accounted.elapse seconds, h.fits, h.lone, h.cooldowns, ?_, ?_, h.windows⟩
  · exact hrecent.trans h.recentFits
  · intro r run hrun
    have hreserved := h.reserved r run hrun
    omega

/-- **Reading the allowance.**  With nothing under way, what is left of the cap
is left beside everything the last day accepted. -/
theorem Capped.started (h : Capped cap w) {a : Automation} (hsearch : a.rule.hasSearch = true)
    (hspent : ∀ r run, w.runs r = some run → run.remaining = 0) : Capped cap (w.started cap a) := by
  have hidle : ∀ r run p, w.runs r = some run → run.posting ≠ some p := by
    intro r run p hrun hp
    have hnone := (h.posting_of_spent hrun (hspent r run hrun)).1
    rw [hnone] at hp
    cases hp
  have hcount := h.recent_le_count hidle
  have hfits := h.recentFits
  refine h.replace (h.accounted.started hsearch) rfl rfl rfl ?_
  intro run' hsome
  obtain rfl := Option.some.inj hsome
  refine ⟨fun p hp => (nomatch hp), ?_, fun _ r' run'' _ hrun'' => hspent r' run'' hrun''⟩
  show w.recent + min a.budgetPerRun (cap - countRecentSearches w.now w.ledger) ≤ cap
  omega

/-- A selection within the allowance keeps the cap. -/
theorem Capped.selected (h : Capped cap w) (hrun : w.runs r = some run)
    (hidle : run.posting = none) {v : Visit} {c : Catalog} {tagIds : List Int}
    (hfree : w.SelectsFree r v c tagIds) :
    Capped cap (w.selected r run v (w.selection run v c tagIds)) := by
  have hlength : (w.selection run v c tagIds).length ≤ run.remaining := length_searchSelection_le
  have hreserved := h.reserved r run hrun
  have hunspent : run.unspent = run.remaining := by simp [SearchRun.unspent, hidle]
  refine h.replace (h.accounted.selected hrun hidle hfree) rfl rfl rfl ?_
  intro run' hsome
  obtain rfl := Option.some.inj hsome
  refine ⟨?_, ?_, fun hleft r' run'' hne hrun'' => h.others_spent hrun hleft hne hrun''⟩
  · intro p hp
    by_cases hempty : w.selection run v c tagIds = []
    · simp [hempty] at hp
    · simp only [if_neg hempty, Option.some.injEq] at hp
      rw [← hp]
      exact ⟨hempty, hlength⟩
  · by_cases hempty : w.selection run v c tagIds = []
    · simp only [SearchRun.unspent, hempty, if_true, Option.elim_none]
      omega
    · simp only [SearchRun.unspent, if_neg hempty, Option.elim_some, flatten_slices]
      omega

/-- A visit that ends with nothing sent. -/
theorem Capped.refused (h : Capped cap w) (hrun : w.runs r = some run)
    (hp : run.posting = some p) (hunsent : w.NothingSent r) :
    Capped cap (w.setRun r (some { run with posting := none })) := by
  have hreserved := h.reserved r run hrun
  have hfits := (h.fits r run p hrun hp).2
  have hunspent : run.unspent = run.remaining := by
    simp only [SearchRun.unspent, hp, Option.elim_some, hunsent run p hrun hp, flatten_slices]
    omega
  have hacc : Accounted (w.setRun r (some { run with posting := none })) := by
    refine h.accounted.setRun_free hunsent (h.accounted.runIds r run hrun) ?_
    intro run' hsome
    obtain rfl := Option.some.inj hsome
    exact ⟨h.accounted.searching r run hrun, rfl⟩
  refine h.replace hacc rfl rfl rfl ?_
  intro run' hsome
  obtain rfl := Option.some.inj hsome
  refine ⟨fun p hp => (nomatch hp), ?_, fun hleft r' run'' hne hrun'' =>
    h.others_spent hrun hleft hne hrun''⟩
  show w.recent + run.remaining ≤ cap
  omega

/-- Writing the ledger keeps the cap. -/
theorem Capped.recorded (h : Capped cap w) (hrun : w.runs r = some run)
    (hp : run.posting = some p) (hpending : p.pending = []) : Capped cap (w.recorded r run p) := by
  have hreserved := h.reserved r run hrun
  have hunspent : run.unspent = run.remaining - p.items.length := by
    simp [SearchRun.unspent, hp, hpending]
  refine h.replace (h.accounted.recorded hrun hp) rfl rfl rfl ?_
  intro run' hsome
  obtain rfl := Option.some.inj hsome
  refine ⟨fun p hp => (nomatch hp), ?_, ?_⟩
  · show w.recent + (run.remaining - p.items.length) ≤ cap
    omega
  · intro hleft r' run'' hne hrun''
    have hleft : 0 < run.remaining - p.items.length := hleft
    exact h.others_spent hrun (by omega) hne hrun''

/-- Finishing a run keeps the cap. -/
theorem Capped.finished (h : Capped cap w) (hrun : w.runs r = some run)
    (hidle : run.posting = none) : Capped cap (w.setRun r none) := by
  have hacc : Accounted (w.setRun r none) := by
    refine h.accounted.setRun_free ?_ (h.accounted.runIds r run hrun) (fun _ hnone => nomatch hnone)
    intro run' p' hrun' hp'
    rw [hrun] at hrun'
    obtain rfl := Option.some.inj hrun'
    rw [hidle] at hp'
    cases hp'
  exact h.replace hacc rfl rfl rfl fun run' hsome => nomatch hsome

/-- **A command is accepted.**  What it adds to the last day it takes from what
its run may still send; no other run may send anything. -/
theorem Capped.answered (h : Capped cap w) (hrun : w.runs r = some run)
    (hp : run.posting = some p) {chunk : List Int} {rest : List (List Int)}
    (hpending : p.pending = chunk :: rest) :
    Capped cap (w.posted r run p chunk rest (true, .returns)) := by
  set w' := w.posted r run p chunk rest (true, .returns) with hw'
  set e : AcceptedCommand := ⟨w.now, p.visit, chunk, run.automation.cooldownDays⟩ with he
  obtain ⟨hne, hfits⟩ := h.fits r run p hrun hp
  have hpos := List.length_pos_of_ne_nil hne
  have hreserved := h.reserved r run hrun
  have hunspent : run.unspent =
      run.remaining - p.items.length + (chunk.length + rest.flatten.length) := by
    simp [SearchRun.unspent, hp, hpending]
  have hrecent : w'.recent = w.recent + chunk.length := by
    have hlate : decide (w.now - daySeconds ≤ e.time) = true := by
      refine decide_eq_true ?_
      show w.now - daySeconds ≤ w.now
      unfold daySeconds
      omega
    show itemsWhere (fun e => w.now - daySeconds ≤ e.time) (w.accepted ++ [e]) = _
    rw [itemsWhere_append, if_pos hlate]
    rfl
  have hcapped : w'.recent ≤ cap := by omega
  refine ⟨h.accounted.answered hrun hp hpending, ?_, ?_, ?_, hcapped, ?_, ?_⟩
  · intro r' run' p' hrun' hp'
    rcases runs_posted hrun' with ⟨-, rfl⟩ | ⟨-, hold⟩
    · obtain rfl := Option.some.inj hp'
      exact ⟨hne, hfits⟩
    · exact h.fits r' run' p' hold hp'
  · intro r₁ r₂ run₁ run₂ hrun₁ hrun₂ hleft₁ hleft₂
    rcases runs_posted hrun₁ with ⟨rfl, rfl⟩ | ⟨hne₁, hold₁⟩
    · rcases runs_posted hrun₂ with ⟨rfl, -⟩ | ⟨hne₂, hold₂⟩
      · rfl
      · exact h.lone _ _ run run₂ hrun hold₂ hleft₁ hleft₂
    · rcases runs_posted hrun₂ with ⟨rfl, rfl⟩ | ⟨-, hold₂⟩
      · exact h.lone _ _ run₁ run hold₁ hrun hleft₁ hleft₂
      · exact h.lone r₁ r₂ run₁ run₂ hold₁ hold₂ hleft₁ hleft₂
  · intro f hf
    rcases mem_accepted_posted.mp hf with hf | rfl
    · exact h.cooldowns f hf
    · exact run.automation.cooldownBounds.1
  · intro r' run' hrun'
    rcases runs_posted hrun' with ⟨-, rfl⟩ | ⟨hother, hold⟩
    · have hleft : SearchRun.unspent { run
          with posting := some { p with pending := rest, attempt := 1 } } =
          run.remaining - p.items.length + rest.flatten.length := rfl
      rw [hleft]
      omega
    · have hspent := h.others_spent hrun (by omega) hother hold
      have hzero := (h.posting_of_spent hold hspent).2
      omega
  · intro upTo
    have hold := h.windows upTo
    have hone : w'.acceptedWithinDay upTo = w.acceptedWithinDay upTo +
        if (decide (upTo - daySeconds ≤ w.now) && decide (w.now ≤ upTo)) = true then chunk.length
        else 0 := itemsWhere_append
    by_cases hinside : (decide (upTo - daySeconds ≤ w.now) && decide (w.now ≤ upTo)) = true
    · have hafter : w.now ≤ upTo := of_decide_eq_true (Bool.and_eq_true_iff.mp hinside).2
      have hle : w'.acceptedWithinDay upTo ≤ w'.recent := w'.acceptedWithinDay_le_recent hafter
      omega
    · rw [hone, if_neg hinside]
      omega

/-- A command that is tried again may still be sent. -/
theorem Capped.retried (h : Capped cap w) (hrun : w.runs r = some run)
    (hp : run.posting = some p) (n : ℕ) :
    Capped cap (w.setRun r (some { run with posting := some { p with attempt := n } })) := by
  have hreserved := h.reserved r run hrun
  have hunspent : run.unspent =
      run.remaining - p.items.length + p.pending.flatten.length := by
    simp [SearchRun.unspent, hp]
  refine h.replace (h.accounted.retried hrun hp n) rfl rfl rfl ?_
  intro run' hsome
  obtain rfl := Option.some.inj hsome
  refine ⟨fun p' hp' => ?_, ?_, fun hleft r' run'' hne hrun'' =>
    h.others_spent hrun hleft hne hrun''⟩
  · obtain rfl := Option.some.inj hp'
    exact h.fits r run p hrun hp
  · show w.recent + (run.remaining - p.items.length + p.pending.flatten.length) ≤ cap
    omega

/-- **One step** that shares no allowance keeps the cap. -/
theorem Capped.step (h : Capped cap w) {settings : ArrSettings} {act : SearchAction}
    {w' : SearchWorld} (hapart : w.AllowanceApart settings act)
    (hstep : w.step cap settings act = some w') : Capped cap w' := by
  cases act with
  | elapse seconds =>
      obtain rfl := Option.some.inj hstep
      exact h.elapse seconds
  | start a =>
      obtain ⟨hsearch, rfl⟩ := step_start hstep
      exact h.started hsearch hapart
  | select r v c tagIds =>
      obtain ⟨run, hrun, hidle, rfl⟩ := step_select hstep
      exact h.selected hrun hidle hapart
  | post r attempt =>
      obtain ⟨run, p, chunk, rest, hrun, hp, hpending, rfl⟩ := step_post hstep
      rcases posted_cases hapart hrun hp chunk rest with heq | heq | ⟨hunsent, heq⟩
      · rw [heq]
        exact h.answered hrun hp hpending
      · rw [heq]
        exact h.retried hrun hp _
      · rw [heq]
        exact h.refused hrun hp hunsent
  | record r =>
      obtain ⟨run, p, hrun, hp, hpending, rfl⟩ := step_record hstep
      exact h.recorded hrun hp hpending
  | finish r =>
      obtain ⟨run, hrun, hidle, rfl⟩ := step_finish hstep
      exact h.finished hrun hidle

/-- **The cap is kept** over every such run. -/
theorem capped_of_reaches {settings : ArrSettings} {now : Int} {ledger : ActionLedger}
    (h : Reaches (SearchWorld.step cap settings) (AllowanceApart settings)
      (SearchWorld.idle now ledger) w) : Capped cap w :=
  h.invariant Capped.idle fun _ _ _ hs hapart hstep => hs.step hapart hstep

/-- **The global daily cap holds** in every run in which no automation starts
while another one has allowance left, no selection takes what another run
holds or names an item twice, no attempt that an instance takes on goes
unanswered, and no command raises after its visit has reached the instance. -/
theorem cap_kept {settings : ArrSettings} {now : Int} {ledger : ActionLedger}
    (h : Reaches (SearchWorld.step cap settings) (AllowanceApart settings)
      (SearchWorld.idle now ledger) w) : w.CapKept cap := (capped_of_reaches h).windows

/-! ## Two automations under a cap of one -/

/-- Both automations read that one search is left, and each sends its own. -/
theorem overlapping_runs_exceed_cap :
    ¬ ∀ (cap : ℕ) (settings : ArrSettings) (now : Int) (ledger : ActionLedger) (w : SearchWorld),
      Reachable (SearchWorld.step cap settings) (SearchWorld.idle now ledger) w →
        w.CapKept cap := by
  intro h
  have hboth : (replay (SearchWorld.step 1 ⟨3, id⟩)
      [.start (hunter 1), .start (hunter 2), selectMovie 1,
        .select 2 ⟨.movie, "second"⟩ (missingMovies "second" [5]) [], .post 1 .answered,
        .post 2 .answered] (SearchWorld.idle 0 KeyedTable.empty)).map
      (fun w => w.acceptedWithinDay 0) = some 2 := by
    decide +kernel
  obtain ⟨w, hw, htwo⟩ := Option.map_eq_some_iff.mp hboth
  have hkept := h 1 ⟨3, id⟩ 0 KeyedTable.empty w (reachable_of_replay hw) 0
  omega

/-- No run so far has allowance left. -/
theorem Accounted.allSpent {w : SearchWorld} (h : Accounted w)
    (hall : ∀ r < w.nextRunId, ∀ run ∈ w.runs r, SearchRun.remaining run = 0) :
    ∀ r run, w.runs r = some run → run.remaining = 0 :=
  fun r run hrun => hall r (h.runIds r run hrun) run hrun

/-- Under a cap of one, an automation whose first attempt does not arrive searches
a movie, and another one that starts beside it finds nothing left. -/
theorem second_run_keeps_cap :
    ∃ w, replay (SearchWorld.step 1 ⟨3, id⟩)
        [.start (hunter 1), selectMovie 1, .post 1 .undelivered, .post 1 .answered, .record 1,
          .start (hunter 2), selectMovie 2]
        (SearchWorld.idle 0 KeyedTable.empty) = some w ∧
      w.accepted = [⟨0, ⟨.movie, "default"⟩, [1], 7⟩] ∧
      (w.runs 2).map SearchRun.remaining = some 0 ∧ w.CapKept 1 := by
  have hstarts : AllowanceApart ⟨3, id⟩ (SearchWorld.idle 0 KeyedTable.empty)
      (.start (hunter 1)) := by
    intro _ _ hrun
    cases hrun
  have hfirst : Reaches (SearchWorld.step 1 ⟨3, id⟩) (AllowanceApart ⟨3, id⟩)
      (SearchWorld.idle 0 KeyedTable.empty) _ :=
    ((((Reaches.refl.tail hstarts rfl).tail
      (show AllowanceApart _ _ (selectMovie 1) from selectMovie_apart ⟨3, id⟩ (by decide)) rfl).tail
      (show AllowanceApart _ _ (.post 1 .undelivered) from
        attemptCounts_of rfl rfl (by decide)) rfl).tail
      (show AllowanceApart _ _ (.post 1 .answered) from
        attemptCounts_of rfl rfl (by decide)) rfl).tail
      (show AllowanceApart _ _ (.record 1) from trivial) rfl
  have hstarted := hfirst.tail (show AllowanceApart _ _ (.start (hunter 2)) from
    (capped_of_reaches hfirst).accounted.allSpent (by decide +kernel)) rfl
  have hfree := (capped_of_reaches hstarted).accounted.selectsFree (r := 2)
    (v := ⟨.movie, "default"⟩) (c := missingMovies "default" [1]) [] rfl
    (by decide +kernel) (by decide +kernel)
  have hsecond := hstarted.tail (show AllowanceApart _ _ (selectMovie 2) from hfree) rfl
  exact ⟨_, rfl, by decide +kernel, by decide +kernel, cap_kept hsecond⟩

end SearchWorld

end Nebularr
