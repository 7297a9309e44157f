import Nebularr.SearchRuns

/-!
# A run is a run of the machine

`runEnd` carries a run from its first visit to its last; the machine of
overlapping runs lets anything happen between two of its moments.  Where nothing
does, the two agree: a searching run is a schedule of the machine, which ends
with the same ledger, the same budget and the same commands at the instances.
Its clock has to run forwards, and its ledger writes to commit.
-/

namespace Nebularr

/-- A command as often as its instance has taken it on. -/
def SentCommand.acceptances (command : SentCommand) : List (Visit × List Int) :=
  List.replicate command.times (command.visit, command.items)

namespace SearchWorld

/-- The commands that instances have taken on. -/
def sentCommands (w : SearchWorld) : List (Visit × List Int) :=
  w.accepted.map fun e => (e.visit, e.items)

variable {cap r : ℕ} {settings : ArrSettings} {run : SearchRun} {v : Visit} {items chunk : List Int}
  {rest : List (List Int)}

/-- An attempt adds the command to those taken on, or does not. -/
theorem sentCommands_posted (w : SearchWorld) (p : Posting) (result : Bool × AttemptEnd) :
    (w.posted r run p chunk rest result).sentCommands =
      w.sentCommands ++ List.replicate result.1.toNat (p.visit, chunk) := by
  obtain ⟨taken, ending⟩ := result
  cases taken with
  | true => simp [posted, sent, setRun, sentCommands]
  | false => simp [posted, setRun, sentCommands]

theorem now_ledger_posted (w : SearchWorld) (run : SearchRun) (p : Posting) (chunk : List Int)
    (rest : List (List Int)) (result : Bool × AttemptEnd) :
    (w.posted r run p chunk rest result).now = w.now ∧
      (w.posted r run p chunk rest result).ledger = w.ledger := by
  obtain ⟨taken, ending⟩ := result
  cases taken with
  | true => exact ⟨rfl, rfl⟩
  | false => exact ⟨rfl, rfl⟩

/-- The world while a run posts: its clock and ledger, what has been taken on, and
what the run has left to post. -/
structure Posts (w : SearchWorld) (r : ℕ) (run : SearchRun) (now : Int) (ledger : ActionLedger)
    (sent : List (Visit × List Int)) (posting : Option Posting) : Prop where
  now : w.now = now
  ledger : w.ledger = ledger
  sent : w.sentCommands = sent
  run : w.runs r = some { run with posting := posting }

variable {now : Int} {ledger : ActionLedger} {sent : List (Visit × List Int)} {w : SearchWorld}

variable (cap settings) in
/-- One attempt. -/
theorem Posts.attempt {n : ℕ}
    (h : w.Posts r run now ledger sent (some ⟨v, items, chunk :: rest, n⟩))
    (attempt : CommandAttempt) :
    let result := attempt.comesTo (commandRequest settings v.entity) n
    ∃ w', w.step cap settings (.post r attempt) = some w' ∧
      w'.Posts r run now ledger (sent ++ List.replicate result.1.toNat (v, chunk))
        (run.next ⟨v, items, chunk :: rest, n⟩ rest result.2).posting := by
  intro result
  set p : Posting := ⟨v, items, chunk :: rest, n⟩ with hp
  refine ⟨w.posted r { run with posting := some p } p chunk rest result, ?_, ?_⟩
  · have hrun := h.run
    simp [step, hrun, hp, result]
  · obtain ⟨hnow, hledger⟩ := now_ledger_posted (r := r) w { run with posting := some p } p chunk
      rest result
    refine ⟨hnow.trans h.now, hledger.trans h.ledger, ?_, ?_⟩
    · rw [sentCommands_posted, h.sent]
    · refine (Function.update_self _ _ _).trans (congrArg some ?_)
      cases result.2 <;> rfl

variable (cap settings) in
/-- The attempts that are repeated. -/
theorem Posts.attempts (attempts : ℕ → CommandAttempt) (k : ℕ) :
    ∀ {first : ℕ} {sent : List (Visit × List Int)} {w : SearchWorld},
      w.Posts r run now ledger sent (some ⟨v, items, chunk :: rest, first⟩) →
      (∀ i < k, ((attempts (first + i)).comesTo (commandRequest settings v.entity)
        (first + i)).2 = .repeats) →
      ∃ actions w', replay (step cap settings) actions w = some w' ∧
        w'.Posts r run now ledger (sent ++ List.replicate ((List.range' first k).countP fun n =>
            ((attempts n).comesTo (commandRequest settings v.entity) n).1) (v, chunk))
          (some ⟨v, items, chunk :: rest, first + k⟩) := by
  induction k with
  | zero =>
      intro first sent w h _
      exact ⟨[], w, rfl, by simpa using h⟩
  | succ k ih =>
      intro first sent w h hrepeats
      obtain ⟨w₁, hstep, h₁⟩ := h.attempt cap settings (attempts first)
      have hfirst := hrepeats 0 (Nat.succ_pos k)
      rw [Nat.add_zero] at hfirst
      rw [hfirst] at h₁
      have hlater : ∀ i < k, ((attempts (first + 1 + i)).comesTo (commandRequest settings v.entity)
          (first + 1 + i)).2 = .repeats := by
        intro i hi
        rw [show first + 1 + i = first + (i + 1) by omega]
        exact hrepeats (i + 1) (Nat.succ_lt_succ hi)
      obtain ⟨actions, w₂, hreplay, h₂⟩ := ih h₁ hlater
      refine ⟨.post r (attempts first) :: actions, w₂, ?_, ?_⟩
      · rw [replay, hstep]
        exact hreplay
      · have hcount : (List.range' first (k + 1)).countP (fun n =>
            ((attempts n).comesTo (commandRequest settings v.entity) n).1) =
            ((attempts first).comesTo (commandRequest settings v.entity) first).1.toNat +
              (List.range' (first + 1) k).countP fun n =>
                ((attempts n).comesTo (commandRequest settings v.entity) n).1 := by
          rw [List.range'_succ, List.countP_cons]
          cases ((attempts first).comesTo (commandRequest settings v.entity) first).1 <;>
            simp [Nat.add_comm]
        rw [hcount, List.replicate_add, ← List.append_assoc,
          show first + (k + 1) = first + 1 + k by omega]
        exact h₂

variable (cap settings) in
/-- **A command**, with all its attempts. -/
theorem Posts.command (h : w.Posts r run now ledger sent (some ⟨v, items, chunk :: rest, 1⟩))
    (attempts : ℕ → CommandAttempt) :
    let outcome := commandOutcome (commandRequest settings v.entity) attempts
    ∃ actions w', replay (step cap settings) actions w = some w' ∧
      w'.Posts r run now ledger (sent ++ List.replicate outcome.accepted (v, chunk))
        (if outcome.error = none then some ⟨v, items, rest, 1⟩ else none) := by
  intro outcome
  obtain ⟨k, hrepeats, hlast, haccepted⟩ :=
    commandOutcome_attempts (commandRequest settings v.entity) attempts
  obtain ⟨actions, w₁, hreplay, h₁⟩ := h.attempts cap settings attempts k fun i hi => by
    rw [Nat.add_comm]
    exact hrepeats i hi
  rw [Nat.add_comm 1 k] at h₁
  obtain ⟨w₂, hstep, h₂⟩ := h₁.attempt cap settings (attempts (k + 1))
  refine ⟨actions ++ [.post r (attempts (k + 1))], w₂, ?_, ?_⟩
  · rw [replay_append, hreplay, Option.bind_some, replay, hstep]
    rfl
  · rw [hlast, List.append_assoc, ← List.replicate_add] at h₂
    have hcount : outcome.accepted = (List.range' 1 k).countP (fun n =>
        ((attempts n).comesTo (commandRequest settings v.entity) n).1) +
          ((attempts (k + 1)).comesTo (commandRequest settings v.entity) (k + 1)).1.toNat := by
      rw [show outcome.accepted = _ from haccepted, List.range'_1_concat, List.countP_append,
        Nat.add_comm 1 k, List.countP_singleton]
      cases ((attempts (k + 1)).comesTo (commandRequest settings v.entity) (k + 1)).1 <;> rfl
    rw [hcount]
    by_cases herror : outcome.error = none
    · rw [if_pos herror] at h₂ ⊢
      exact h₂
    · rw [if_neg herror] at h₂ ⊢
      exact h₂

variable (cap settings) in
/-- **The commands of a visit.**  Posting them one by one leaves what the loop
over them leaves, and the run holding its items only if none raised. -/
theorem Posts.commands (attempts : ℕ → ℕ → CommandAttempt) (chunks : List (List Int)) :
    ∀ {n : ℕ} {log : List AcceptedChunk} {base : List (Visit × List Int)} {w : SearchWorld},
      w.Posts r run now ledger
        (base ++ log.flatMap fun chunk => (chunk.command v).acceptances)
        (some ⟨v, items, chunks, 1⟩) →
      let exit := tornLoop (fun _ => false) (postCommand fun n =>
        commandOutcome (commandRequest settings v.entity) (attempts n)) n chunks log
      ∃ actions w', replay (step cap settings) actions w = some w' ∧
        w'.Posts r run now ledger
          (base ++ exit.state.flatMap fun chunk => (chunk.command v).acceptances)
          (if exit.error = none then some ⟨v, items, [], 1⟩ else none) := by
  induction chunks with
  | nil => exact fun {n log base w} h => ⟨[], w, rfl, h⟩
  | cons chunk rest ih =>
      intro n log base w h exit
      set outcome := commandOutcome (commandRequest settings v.entity) (attempts n) with houtcome
      obtain ⟨before, w₁, hbefore, h₁⟩ := h.command cap settings (attempts n)
      have hlog : base ++ (log.flatMap fun chunk => (chunk.command v).acceptances) ++
          List.replicate outcome.accepted (v, chunk) =
            base ++ (postCommand (fun n => commandOutcome (commandRequest settings v.entity)
              (attempts n)) n chunk log).1.flatMap fun chunk => (chunk.command v).acceptances := by
        rw [List.append_assoc, postCommand]
        by_cases hzero : outcome.accepted = 0
        · rw [if_pos hzero, hzero]
          simp
        · rw [if_neg hzero, List.flatMap_append]
          simp [AcceptedChunk.command, SentCommand.acceptances, houtcome]
      rw [← houtcome, hlog] at h₁
      cases herror : outcome.error with
      | some e =>
          have hexit : exit = ⟨(postCommand (fun n => commandOutcome
              (commandRequest settings v.entity) (attempts n)) n chunk log).1, n + 1, false,
                some e⟩ := by
            simp [exit, tornLoop, postCommand, ← houtcome, herror]
          refine ⟨before, w₁, hbefore, ?_⟩
          rw [hexit]
          rw [herror] at h₁
          exact h₁
      | none =>
          have hexit : exit = tornLoop (fun _ => false) (postCommand fun n =>
              commandOutcome (commandRequest settings v.entity) (attempts n)) (n + 1) rest
                (postCommand (fun n => commandOutcome (commandRequest settings v.entity)
                  (attempts n)) n chunk log).1 := by
            simp [exit, tornLoop, postCommand, ← houtcome, herror]
          rw [herror, if_pos rfl] at h₁
          obtain ⟨after, w₂, hafter, h₂⟩ := ih h₁
          refine ⟨before ++ after, w₂, ?_, ?_⟩
          · rw [replay_append, hbefore]
            exact hafter
          · rw [hexit]
            exact h₂

/-- A world in which one run is between two visits, as far as its automation
knows: with this ledger, this budget, and these commands sent. -/
structure Follows (w : SearchWorld) (r : ℕ) (a : Automation) (p : RunProgress) : Prop where
  run : w.runs r = some ⟨a, p.remaining, none⟩
  ledger : w.ledger = p.ledger
  sent : w.sentCommands = p.sent.flatMap SentCommand.acceptances

variable {env : RunEnv} {a : Automation} {p : RunProgress}

/-- Time passes up to a moment. -/
theorem step_elapse {now : Int} (h : w.now ≤ now) :
    w.step cap settings (.elapse (now - w.now).toNat) = some { w with now := now } := by
  have hseconds : w.now + ((now - w.now).toNat : Int) = now := by omega
  rw [step, hseconds]

/-- What is recorded of a visit and what it sent decide what it leaves. -/
theorem Follows.of_visit {w' : SearchWorld} (h : w.Follows r a p)
    (hrun : w'.runs r = some ⟨a, p.remaining - (visitRecorded env a v p).length, none⟩)
    (hledger : w'.ledger = writeLedger ((visitRecorded env a v p).map v.item)
      ⟨env.now (.record v), a.id, r⟩ w.ledger)
    (hsent : w'.sentCommands =
      w.sentCommands ++
        (visitCommands env a v p).flatMap fun chunk => (chunk.command v).acceptances) :
    w'.Follows r a (runInstance env a r v p) := by
  obtain ⟨hsent', hledger', hremaining', -⟩ := runInstance_spec env a r v p
  refine ⟨?_, ?_, ?_⟩
  · rw [hremaining', hrun]
  · rw [hledger', hledger, h.ledger]
  · rw [hsent', hsent, h.sent, List.flatMap_append, List.flatMap_map]

/-- A visit that records nothing leaves the run and the ledger alone. -/
theorem Follows.of_unrecorded {w' : SearchWorld} (h : w.Follows r a p)
    (hnothing : visitRecorded env a v p = []) (hrun : w'.runs r = some ⟨a, p.remaining, none⟩)
    (hledger : w'.ledger = w.ledger)
    (hsent : w'.sentCommands =
      w.sentCommands ++
        (visitCommands env a v p).flatMap fun chunk => (chunk.command v).acceptances) :
    w'.Follows r a (runInstance env a r v p) := by
  refine h.of_visit ?_ ?_ hsent
  · rw [hnothing, List.length_nil, Nat.sub_zero, hrun]
  · rw [hnothing, List.map_nil, writeLedger_nil, hledger]

variable (cap settings) in
/-- The selection of a visit, at its moment. -/
theorem Follows.replay_select (h : w.Follows r a p) (hsearch : a.rule.hasSearch = true)
    (hnow : w.now ≤ env.now (.select v)) :
    ∃ actions, replay (step cap settings) actions w = some
      (selected { w with now := env.now (.select v) } r ⟨a, p.remaining, none⟩ v
        (visitItems env a v p)) := by
  set w₁ : SearchWorld := { w with now := env.now (.select v) } with hw₁
  have hrun := h.run
  have hselection : w₁.selection ⟨a, p.remaining, none⟩ v (env.catalog v)
      (visitBinds env a v p).tagIds = visitItems env a v p := by
    rw [visitItems_eq env a v p hsearch, selection, hw₁]
    simp only
    rw [h.ledger]
    rfl
  have hselect : w₁.step cap settings (.select r v (env.catalog v) (visitBinds env a v p).tagIds) =
      some (w₁.selected r ⟨a, p.remaining, none⟩ v (visitItems env a v p)) := by
    rw [← hselection]
    simp [step, hw₁, hrun]
  refine ⟨[.elapse (env.now (.select v) - w.now).toNat,
    .select r v (env.catalog v) (visitBinds env a v p).tagIds], ?_⟩
  rw [replay, step_elapse hnow, Option.bind_some, replay]
  show (w₁.step cap settings (.select r v (env.catalog v) (visitBinds env a v p).tagIds)).bind _ = _
  rw [hselect]
  rfl

variable (cap settings) in
/-- The ledger write of a visit, at its moment. -/
theorem replay_record {posting : Posting}
    (hrun : w.runs r = some { run with posting := some posting })
    (hposted : posting.pending = []) {now : Int} (hnow : w.now ≤ now) :
    ∃ actions, replay (step cap settings) actions w = some
      (recorded { w with now := now } r { run with posting := some posting } posting) := by
  refine ⟨[.elapse (now - w.now).toNat, .record r], ?_⟩
  rw [replay, step_elapse hnow, Option.bind_some]
  simp [replay, step, hrun, hposted]

variable (cap) in
/-- **A visit is a stretch of the machine.** -/
theorem Follows.visit (h : w.Follows r a p) (hsearch : a.rule.hasSearch = true)
    (hnow : w.now ≤ env.now (.select v)) (hclock : env.now (.select v) ≤ env.now (.record v))
    (hrecord : env.fault (.record v) = none) :
    ∃ actions w', replay (step cap env.settings) actions w = some w' ∧
      w'.now ≤ env.now (.record v) ∧
      w'.Follows r a (runInstance env a r v p) := by
  by_cases hlive : VisitSelects env a v
  case neg =>
    have hunrecorded : visitRecorded env a v p = [] := by
      rw [visitRecorded, if_neg fun hdone => hlive hdone.1.1]
    refine ⟨[], w, rfl, by omega, h.of_unrecorded hunrecorded h.run rfl ?_⟩
    simp [visitCommands, hlive]
  case pos =>
    obtain ⟨before, hbefore⟩ := h.replay_select cap env.settings (v := v) hsearch hnow
    have hcommands : visitCommands env a v p =
        (searchItems (env.command v) (visitItems env a v p)).state := by
      rw [visitCommands, if_pos ⟨hlive, hsearch⟩]
    set items := visitItems env a v p with hitems
    by_cases hempty : items = []
    · have hunrecorded : visitRecorded env a v p = [] := by
        rw [visitRecorded, ← hitems, hempty]
        split <;> rfl
      refine ⟨before, _, hbefore, hclock, h.of_unrecorded hunrecorded ?_ rfl ?_⟩
      · rw [selected, if_pos hempty]
        exact Function.update_self _ _ _
      · rw [hcommands, hempty, searchItems_nil, List.flatMap_nil, List.append_nil]
        rfl
    · have hposting : (selected { w with now := env.now (.select v) } r ⟨a, p.remaining, none⟩ v
          items).Posts r ⟨a, p.remaining, none⟩ (env.now (.select v)) w.ledger
            (w.sentCommands ++ ([] : List AcceptedChunk).flatMap fun chunk =>
              (chunk.command v).acceptances)
            (some ⟨v, items, slices commandSearchChunk items, 1⟩) := by
        refine ⟨rfl, rfl, (List.append_nil _).symm, ?_⟩
        rw [selected, if_neg hempty]
        exact Function.update_self _ _ _
      obtain ⟨commands, w₁, hcommand, hposts⟩ :=
        hposting.commands cap env.settings (env.attempt v) _ (n := 0)
      obtain ⟨earlier, hposted⟩ : ∃ actions, replay (step cap env.settings) actions w = some w₁ :=
        ⟨before ++ commands, by rw [replay_append, hbefore]; exact hcommand⟩
      have hexit : tornLoop (fun _ => false) (postCommand fun n =>
          commandOutcome (commandRequest env.settings v.entity) (env.attempt v n)) 0
            (slices commandSearchChunk items) [] = searchItems (env.command v) items := rfl
      rw [hexit, ← hcommands] at hposts
      have hlater : w₁.now ≤ env.now (.record v) := hposts.now.trans_le hclock
      have hrun₁ := hposts.run
      cases herror : (searchItems (env.command v) items).error with
      | none =>
          have hrecorded : visitRecorded env a v p = items := by
            rw [visitRecorded, if_pos ⟨⟨hlive, fun _ _ => ⟨herror, hrecord⟩⟩, hsearch⟩]
          rw [herror, if_pos rfl] at hrun₁
          obtain ⟨write, hwrite⟩ := replay_record cap env.settings hrun₁ rfl hlater
          refine ⟨earlier ++ write, recorded { w₁ with now := env.now (.record v) } r
            ⟨a, p.remaining, some ⟨v, items, [], 1⟩⟩ ⟨v, items, [], 1⟩, ?_, Int.le_refl _,
            h.of_visit ?_ ?_ hposts.sent⟩
          · rw [replay_append, hposted]
            exact hwrite
          · rw [hrecorded]
            exact Function.update_self _ _ _
          · rw [hrecorded]
            exact congrArg (writeLedger _ _) hposts.ledger
      | some e =>
          have hunrecorded : visitRecorded env a v p = [] := by
            rw [visitRecorded, if_neg]
            rintro ⟨⟨-, hsearched⟩, -⟩
            have hnone := (hsearched hsearch hempty).1
            rw [← hitems, herror] at hnone
            cases hnone
          rw [herror, if_neg (by simp)] at hrun₁
          exact ⟨earlier, w₁, hposted, hlater,
            h.of_unrecorded hunrecorded hrun₁ hposts.ledger hposts.sent⟩

/-- The clock of a run does not go back from one of its visits to the next. -/
def ClockForward (env : RunEnv) : Int → List Visit → Prop
  | _, [] => True
  | now, v :: rest =>
      now ≤ env.now (.select v) ∧ env.now (.select v) ≤ env.now (.record v) ∧
        ClockForward env (env.now (.record v)) rest

theorem ClockForward.of_le {now now' : Int} (h : now' ≤ now) {visits : List Visit}
    (hclock : ClockForward env now visits) : ClockForward env now' visits := by
  cases visits with
  | nil => trivial
  | cons v rest => exact ⟨h.trans hclock.1, hclock.2⟩

variable (cap) in
theorem Follows.through (hsearch : a.rule.hasSearch = true)
    (hrecord : ∀ v, env.fault (.record v) = none) (visits : List Visit) :
    ∀ (w : SearchWorld) (p : RunProgress), w.Follows r a p → ClockForward env w.now visits →
      ∃ actions w', replay (step cap env.settings) actions w = some w' ∧
        w'.Follows r a (runThrough env a r visits p) := by
  induction visits with
  | nil => exact fun w p h _ => ⟨[], w, rfl, h⟩
  | cons v rest ih =>
      intro w p h hclock
      obtain ⟨hnow, hvisit, hrest⟩ := hclock
      obtain ⟨before, w₁, hbefore, hlater, hfollows⟩ :=
        h.visit cap hsearch hnow hvisit (hrecord v)
      obtain ⟨after, w₂, hafter, hend⟩ := ih w₁ _ hfollows (hrest.of_le hlater)
      refine ⟨before ++ after, w₂, ?_, hend⟩
      rw [replay_append, hbefore]
      exact hafter

/-- **A searching run is a schedule of the machine**, from an idle one with the
ledger it finds to one that follows its end. -/
theorem replay_run (hsearch : a.rule.hasSearch = true) (hlive : a.dryRun = false)
    (hrecord : ∀ v, env.fault (.record v) = none)
    (hclock : ClockForward env (env.now .allowance) (runVisits env a)) (ledger : ActionLedger)
    (arr : Visit → ArrLive) :
    ∃ actions w, replay (step env.maxSearchesPerDay env.settings) actions
      (idle (env.now .allowance) ledger) =
        some w ∧ w.Follows 1 a (runEnd env a 1 ledger arr) := by
  set w₀ := idle (env.now .allowance) ledger with hw₀
  have hfree : w₀.lockFree a.id = true := by simp [lockFree, hw₀, idle]
  have hstart : w₀.step env.maxSearchesPerDay env.settings (.start a) =
      some (w₀.started env.maxSearchesPerDay a) := by
    rw [step, if_pos ⟨hsearch, hlive, hfree⟩]
  have hfollows : (w₀.started env.maxSearchesPerDay a).Follows 1 a (runStart env a ledger arr) := by
    refine ⟨?_, rfl, rfl⟩
    have hbudget : searchBudget env a ledger = min a.budgetPerRun
        (env.maxSearchesPerDay - countRecentSearches (env.now .allowance) ledger) := by
      rw [searchBudget, if_pos hsearch]
    simp [runStart, hbudget, started, setRun, hw₀, idle]
  obtain ⟨actions, w, hreplay, hend⟩ :=
    Follows.through env.maxSearchesPerDay hsearch hrecord (runVisits env a) _ _ hfollows hclock
  refine ⟨.start a :: actions, w, ?_, hend⟩
  rw [replay, hstart]
  exact hreplay

end SearchWorld

end Nebularr
