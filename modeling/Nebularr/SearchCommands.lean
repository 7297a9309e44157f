import Nebularr.ArrRequests
import Nebularr.AutomationRules
import Nebularr.ChunkLoop

/-!
# Search commands

A command is posted by `_request`, which posts it again while the reply is
transient.  The instance may have taken it on all the same: the reply can be
lost, or a proxy answers 502 after it has passed the command on.  So an instance
accepts a command once for each attempt that reaches it, and whether the command
raises says little about how often that was.
-/

namespace Nebularr

/-- What a client has from the settings; `repr` writes a text as Python does. -/
structure ArrSettings where
  retryAttempts : Int
  repr : String → String

/-- The request of `_post_command`.  Nobody reads what it returns. -/
def commandRequest (settings : ArrSettings) (entity : Entity) : ArrRequest Unit where
  source := match entity with
    | .movie => "radarr"
    | .episode => "sonarr"
  method := "POST"
  path := "/api/v3/command"
  retryAttempts := settings.retryAttempts
  repr := settings.repr
  empty := ()

/-- An attempt to post a command: whether the instance takes it on, and the
reply.  A reply that acknowledges it comes from an instance that has. -/
structure CommandAttempt where
  accepted : Bool
  reply : Reply Unit
  acknowledged : ∀ (c : ArrRequest Unit) body, c.verdict reply = .ok body → accepted = true

namespace CommandAttempt

/-- It is taken on, and the instance says so. -/
def answered : CommandAttempt :=
  ⟨true, .answered { statusCode := 201, reasonPhrase := "Created" }, fun _ _ _ => rfl⟩

/-- It is taken on, and the reply does not arrive. -/
def unanswered : CommandAttempt := ⟨true, .raised "" "ReadTimeout", fun _ _ _ => rfl⟩

/-- It does not arrive. -/
def undelivered : CommandAttempt :=
  ⟨false, .raised "All connection attempts failed" "ConnectError", fun _ _ h => nomatch h⟩

/-- The instance will not have it. -/
def refused : CommandAttempt :=
  ⟨false, .answered { statusCode := 400, reasonPhrase := "Bad Request" }, fun _ _ h => nomatch h⟩

end CommandAttempt

/-- How the loop of `_request` goes on after an attempt. -/
inductive AttemptEnd
  | returns
  | repeats
  | raises
deriving DecidableEq, Repr

/-- What the `n`-th attempt comes to: whether the instance has taken the command
on, and how the loop goes on. -/
def CommandAttempt.comesTo (attempt : CommandAttempt) (c : ArrRequest Unit) (n : ℕ) :
    Bool × AttemptEnd :=
  -- there are no more attempts, and no error to raise: the assertion does
  if c.retryAttempts < n then (false, .raises)
  else
    (attempt.accepted,
      match c.turn (fun _ => attempt.reply) n with
      | .done (.ok _) => .returns
      | .done (.error _) => .raises
      | .leave _ => .raises
      | .again _ => .repeats)

section Attempts

variable {c : ArrRequest Unit} {attempt : CommandAttempt} {n : ℕ}

/-- An attempt with a transient reply is repeated while that is allowed. -/
theorem CommandAttempt.comesTo_transient (ht : attempt.reply.Transient)
    (hn : (n : Int) < c.retryAttempts) : attempt.comesTo c n = (attempt.accepted, .repeats) := by
  have hturn := @turn_again _ c (fun _ => attempt.reply) n ht hn
  rw [comesTo, if_neg (by omega)]
  cases hcase : c.turn (fun _ => attempt.reply) n with
  | done result => rw [hcase] at hturn; exact hturn.elim
  | leave error => rw [hcase] at hturn; exact hturn.elim
  | again error => rfl

/-- Any other one decides the command. -/
theorem CommandAttempt.comesTo_last (hn : (n : Int) ≤ c.retryAttempts)
    (hlast : attempt.reply.Transient → c.retryAttempts ≤ n) :
    attempt.comesTo c n =
      (attempt.accepted, if (c.verdict attempt.reply).isOk then .returns else .raises) := by
  rw [comesTo, if_neg (by omega)]
  rcases @turn_ends _ c (fun _ => attempt.reply) n hlast with hturn | ⟨error, hturn, hverdict⟩
  · rw [hturn]
    cases c.verdict attempt.reply with
    | ok body => rfl
    | error e => rfl
  · rw [hturn, hverdict]
    rfl

/-- What returns has been taken on. -/
theorem CommandAttempt.accepted_of_returns (h : (attempt.comesTo c n).2 = .returns) :
    (attempt.comesTo c n).1 = true := by
  by_cases hover : c.retryAttempts < n
  · rw [comesTo, if_pos hover] at h
    cases h
  · by_cases hagain : attempt.reply.Transient ∧ (n : Int) < c.retryAttempts
    · rw [comesTo_transient hagain.1 hagain.2] at h
      cases h
    · have hlast : attempt.reply.Transient → c.retryAttempts ≤ n := fun ht =>
        not_lt.mp fun hlt => hagain ⟨ht, hlt⟩
      rw [comesTo_last (not_lt.mp hover) hlast] at h ⊢
      cases hverdict : c.verdict attempt.reply with
      | ok body => exact attempt.acknowledged c body hverdict
      | error e =>
          rw [hverdict] at h
          cases h

end Attempts

/-! ## A command -/

/-- What a command comes to: how often the instance has taken it on, and what is
raised.  A command that returns has been taken on. -/
structure CommandOutcome where
  accepted : ℕ
  error : Option SyncError
  returned : error = none → 0 < accepted

section Command

variable (c : ArrRequest Unit) (attempts : ℕ → CommandAttempt)

/-- The attempts of `_request` that the instance has taken on. -/
def timesAccepted : ℕ :=
  (List.range' 1 (c.request fun n => (attempts n).reply).made).countP fun n => (attempts n).accepted

theorem timesAccepted_pos {body : Unit} (h : c.answer (fun n => (attempts n).reply) = .ok body) :
    0 < timesAccepted c attempts := by
  by_cases hsome : 1 ≤ c.retryAttempts
  · obtain ⟨k, hk⟩ := exists_settledBy hsome fun n => (attempts n).reply
    rw [ArrRequest.answer, request_of_settledBy hk, Option.getD_some] at h
    rw [timesAccepted, request_of_settledBy hk, List.countP_pos_iff]
    exact ⟨k + 1, by simp [List.mem_range'_1], (attempts (k + 1)).acknowledged c body h⟩
  · rw [ArrRequest.answer, request_of_none (not_le.mp hsome)] at h
    cases h

/-- `_post_command`. -/
def commandOutcome : CommandOutcome where
  accepted := timesAccepted c attempts
  error := match c.answer fun n => (attempts n).reply with
    | .ok _ => none
    | .error e => some e
  returned := by
    cases hanswer : c.answer fun n => (attempts n).reply with
    | ok body => exact fun _ => timesAccepted_pos c attempts hanswer
    | error e => exact nofun

/-- **A command, attempt by attempt**: some that are repeated, and one more that
decides it. -/
theorem commandOutcome_attempts :
    ∃ k, (∀ i < k, ((attempts (i + 1)).comesTo c (i + 1)).2 = .repeats) ∧
      ((attempts (k + 1)).comesTo c (k + 1)).2 =
        (if (commandOutcome c attempts).error = none then .returns else .raises) ∧
      (commandOutcome c attempts).accepted =
        (List.range' 1 (k + 1)).countP fun n => ((attempts n).comesTo c n).1 := by
  by_cases hsome : 1 ≤ c.retryAttempts
  · obtain ⟨k, hk⟩ := exists_settledBy hsome fun n => (attempts n).reply
    have hallowed := hk.allowed
    have hrepeats : ∀ i < k, (attempts (i + 1)).comesTo c (i + 1) =
        ((attempts (i + 1)).accepted, .repeats) := fun i hi =>
      CommandAttempt.comesTo_transient (hk.before i hi) (by omega)
    have hlast : (attempts (k + 1)).comesTo c (k + 1) = ((attempts (k + 1)).accepted,
        if (c.verdict (attempts (k + 1)).reply).isOk then .returns else .raises) :=
      CommandAttempt.comesTo_last (by omega) hk.settled
    have hanswer : c.answer (fun n => (attempts n).reply) = c.verdict (attempts (k + 1)).reply := by
      rw [ArrRequest.answer, request_of_settledBy hk, Option.getD_some]
    refine ⟨k, fun i hi => by rw [hrepeats i hi], ?_, ?_⟩
    · rw [hlast, commandOutcome]
      simp only [hanswer]
      cases c.verdict (attempts (k + 1)).reply with
      | ok body => rfl
      | error e => rfl
    · show timesAccepted c attempts = _
      rw [timesAccepted, request_of_settledBy hk]
      refine List.countP_congr fun n hn => ?_
      obtain ⟨hfirst, hbound⟩ : 1 ≤ n ∧ n < 1 + (k + 1) := List.mem_range'_1.mp hn
      obtain ⟨i, rfl⟩ : ∃ i, n = i + 1 := ⟨n - 1, by omega⟩
      rcases Nat.lt_or_ge i k with hi | hi
      · rw [hrepeats i hi]
      · obtain rfl : i = k := by omega
        rw [hlast]
  · have hnone := not_le.mp hsome
    have hover : ∀ n : ℕ, (attempts (n + 1)).comesTo c (n + 1) = (false, .raises) := fun n => by
      rw [CommandAttempt.comesTo, if_pos (by omega)]
    refine ⟨0, fun i hi => absurd hi (Nat.not_lt_zero i), ?_, ?_⟩
    · rw [hover, commandOutcome]
      simp [ArrRequest.answer, request_of_none hnone]
    · show timesAccepted c attempts = _
      rw [timesAccepted, request_of_none hnone]
      simp [hover 0]

end Command

/-- Three replies are lost, and the command that raises has been taken on three
times. -/
example :
    let outcome := commandOutcome (commandRequest ⟨3, id⟩ .movie) fun _ => .unanswered
    outcome.accepted = 3 ∧ outcome.error.isSome = true := by
  decide

/-! ## The commands of a visit -/

/-- A command that an instance has taken on, and how often. -/
structure AcceptedChunk where
  items : List Int
  times : ℕ
deriving DecidableEq, Repr

/-- `COMMAND_SEARCH_CHUNK`. -/
def commandSearchChunk : ℕ+ := 10

/-- `_post_command` for one chunk, on top of what was sent before. -/
def postCommand (outcome : ℕ → CommandOutcome) (n : ℕ) (chunk : List Int)
    (sent : List AcceptedChunk) :
    List AcceptedChunk × Option SyncError :=
  (if (outcome n).accepted = 0 then sent else sent ++ [⟨chunk, (outcome n).accepted⟩],
    (outcome n).error)

/-- `search_movies` and `search_episodes`. -/
def searchItems (outcome : ℕ → CommandOutcome) (items : List Int) :
    LoopExit SyncError (List AcceptedChunk) :=
  tornLoop (fun _ => false) (postCommand outcome) 0 (slices commandSearchChunk items) []

section Items

variable {outcome : ℕ → CommandOutcome} {items : List Int}

theorem searchItems_nil : searchItems outcome [] = ⟨[], 0, false, none⟩ := rfl

/-- A command that returns joins those sent. -/
theorem items_of_postCommand {n : ℕ} {chunk : List Int} {sent sent' : List AcceptedChunk}
    (h : postCommand outcome n chunk sent = (sent', none)) :
    sent'.map AcceptedChunk.items = sent.map AcceptedChunk.items ++ [chunk] := by
  obtain ⟨hsent, herror⟩ := Prod.mk.inj h
  rw [← hsent, if_neg ((outcome n).returned herror).ne', List.map_append]
  rfl

/-- Commands that were sent are the first of the slices. -/
theorem searchItems_first :
    (searchItems outcome items).state.map AcceptedChunk.items <+: slices commandSearchChunk
      items := by
  refine tornLoop_log_first (fun sent => sent.map AcceptedChunk.items) ?_ ?_
    (slices commandSearchChunk items) 0 []
  · exact fun n chunk s s' h => items_of_postCommand h
  · intro n chunk s s' e h
    obtain ⟨hsent, -⟩ := Prod.mk.inj h
    rw [← hsent]
    split
    · exact Or.inl rfl
    · right
      rw [List.map_append]
      rfl

/-- When no command raised, all of them were sent. -/
theorem searchItems_complete (h : (searchItems outcome items).error = none) :
    (searchItems outcome items).state.map AcceptedChunk.items =
      slices commandSearchChunk items := by
  have hstopped : (searchItems outcome items).stopped = false := by
    by_contra hs
    obtain ⟨m, -, hm⟩ := tornLoop_stopped _ _ _ (Bool.eq_true_of_not_eq_false hs)
    cases hm
  exact tornLoop_log (fun sent => sent.map AcceptedChunk.items)
    (fun n chunk s s' hstep => items_of_postCommand hstep)
    (slices commandSearchChunk items) 0 [] hstopped h

section Loop

variable {n : ℕ} {sent : List AcceptedChunk}

/-- After a command that raises no other is posted. -/
theorem postLoop_of_raises {e : SyncError} (h : (outcome n).error = some e) (chunk : List Int)
    (rest : List (List Int)) :
    tornLoop (fun _ => false) (postCommand outcome) n (chunk :: rest) sent =
      ⟨(postCommand outcome n chunk sent).1, n + 1, false, some e⟩ := by
  simp [tornLoop, postCommand, h]

/-- After one that returns the rest are posted. -/
theorem postLoop_of_returns (h : (outcome n).error = none) (chunk : List Int)
    (rest : List (List Int)) :
    tornLoop (fun _ => false) (postCommand outcome) n (chunk :: rest) sent =
      tornLoop (fun _ => false) (postCommand outcome) (n + 1) rest
        (postCommand outcome n chunk sent).1 := by
  simp [tornLoop, postCommand, h]

/-- A command joins those sent if it is taken on. -/
theorem mem_postCommand_iff {chunk first : List Int} :
    chunk ∈ (postCommand outcome n first sent).1.map AcceptedChunk.items ↔
      chunk ∈ sent.map AcceptedChunk.items ∨ (first = chunk ∧ 0 < (outcome n).accepted) := by
  unfold postCommand
  by_cases hzero : (outcome n).accepted = 0
  · simp [hzero]
  · simp [hzero, Nat.pos_of_ne_zero hzero, eq_comm]

end Loop

variable (outcome) in
/-- A loop over commands goes through if each of them returns. -/
theorem postLoop_error_iff (chunks : List (List Int)) :
    ∀ (n : ℕ) (sent : List AcceptedChunk),
      (tornLoop (fun _ => false) (postCommand outcome) n chunks sent).error = none ↔
        ∀ i < chunks.length, (outcome (n + i)).error = none := by
  induction chunks with
  | nil => exact fun n sent => ⟨fun _ i hi => absurd hi (Nat.not_lt_zero i), fun _ => rfl⟩
  | cons chunk rest ih =>
      intro n sent
      have hsplit : (∀ i < (chunk :: rest).length, (outcome (n + i)).error = none) ↔
          (outcome n).error = none ∧ ∀ i < rest.length, (outcome (n + 1 + i)).error = none := by
        rw [List.length_cons, Nat.forall_lt_succ_left]
        simp only [Nat.add_zero, Nat.add_assoc, Nat.add_comm 1]
      rw [hsplit]
      cases herror : (outcome n).error with
      | some e => simp [postLoop_of_raises herror]
      | none => rw [postLoop_of_returns herror, ih, and_iff_right rfl]

/-- The search phase of a visit is over without an error if each of its commands
returns. -/
theorem searchItems_error_iff :
    (searchItems outcome items).error = none ↔
      ∀ n < (slices commandSearchChunk items).length, (outcome n).error = none := by
  have hloop := postLoop_error_iff outcome (slices commandSearchChunk items) 0 []
  simp only [Nat.zero_add] at hloop
  exact hloop

variable (outcome) in
/-- **Which commands an instance has taken on**: those it takes on, up to the first
that raises. -/
theorem mem_postLoop_iff (chunk : List Int) (chunks : List (List Int)) :
    ∀ (n : ℕ) (sent : List AcceptedChunk),
      chunk ∈ (tornLoop (fun _ => false) (postCommand outcome) n chunks sent).state.map
          AcceptedChunk.items ↔
        chunk ∈ sent.map AcceptedChunk.items ∨
          ∃ i, chunks[i]? = some chunk ∧ (∀ m < i, (outcome (n + m)).error = none) ∧
            0 < (outcome (n + i)).accepted := by
  induction chunks with
  | nil =>
      intro n sent
      simp [tornLoop]
  | cons first rest ih =>
      intro n sent
      -- the command is the first one, or one of the rest once the first has returned
      have hsplit : (∃ i, (first :: rest)[i]? = some chunk ∧
            (∀ m < i, (outcome (n + m)).error = none) ∧ 0 < (outcome (n + i)).accepted) ↔
          (first = chunk ∧ 0 < (outcome n).accepted) ∨ (outcome n).error = none ∧
            ∃ i, rest[i]? = some chunk ∧ (∀ m < i, (outcome (n + 1 + m)).error = none) ∧
              0 < (outcome (n + 1 + i)).accepted := by
        rw [← Nat.or_exists_add_one]
        refine or_congr (by simp) ?_
        simp only [Nat.forall_lt_succ_left, List.getElem?_cons_succ, Nat.add_zero, Nat.add_assoc,
          Nat.add_comm 1]
        tauto
      rw [hsplit]
      cases herror : (outcome n).error with
      | some e => simp [postLoop_of_raises herror, mem_postCommand_iff]
      | none =>
          rw [postLoop_of_returns herror, ih, mem_postCommand_iff, or_assoc, and_iff_right rfl]

theorem mem_searchItems_iff {chunk : List Int} :
    chunk ∈ (searchItems outcome items).state.map AcceptedChunk.items ↔
      ∃ n, (slices commandSearchChunk items)[n]? = some chunk ∧
        (∀ m < n, (outcome m).error = none) ∧ 0 < (outcome n).accepted := by
  have hloop := mem_postLoop_iff outcome chunk (slices commandSearchChunk items) 0 []
  simp only [Nat.zero_add, List.map_nil, List.not_mem_nil, false_or] at hloop
  exact hloop

/-- Nothing has been sent unless the first command has. -/
theorem searchItems_eq_nil_iff :
    (searchItems outcome items).state = [] ↔ items = [] ∨ (outcome 0).accepted = 0 := by
  have hmap : (searchItems outcome items).state = [] ↔
      (searchItems outcome items).state.map AcceptedChunk.items = [] := List.map_eq_nil_iff.symm
  rw [hmap, List.eq_nil_iff_forall_not_mem]
  constructor
  · intro h
    by_contra hcon
    obtain ⟨hne, hpos⟩ := not_or.mp hcon
    have hslices : slices commandSearchChunk items ≠ [] := fun hnil =>
      hne (slices_eq_nil_iff.mp hnil)
    obtain ⟨chunk, rest, hfirst⟩ := List.exists_cons_of_ne_nil hslices
    refine h chunk (mem_searchItems_iff.mpr ⟨0, ?_, fun m hm => absurd hm (Nat.not_lt_zero m),
      Nat.pos_of_ne_zero hpos⟩)
    rw [hfirst]
    rfl
  · intro h chunk hchunk
    obtain ⟨n, hn, hbefore, hpos⟩ := mem_searchItems_iff.mp hchunk
    rcases h with rfl | hzero
    · rw [slices_nil] at hn
      cases hn
    · cases n with
      | zero => omega
      | succ n =>
          have hreturned := (outcome 0).returned (hbefore 0 (Nat.succ_pos n))
          omega

variable (outcome) in
/-- What the commands of a visit come to when all of them return. -/
theorem postLoop_complete (chunks : List (List Int)) :
    ∀ (n : ℕ) (sent : List AcceptedChunk), (∀ i < chunks.length, (outcome (n + i)).error = none) →
      (tornLoop (fun _ => false) (postCommand outcome) n chunks sent).state =
        sent ++ chunks.mapIdx fun i chunk => ⟨chunk, (outcome (n + i)).accepted⟩ := by
  induction chunks with
  | nil => exact fun n sent _ => (List.append_nil sent).symm
  | cons chunk rest ih =>
      intro n sent h
      have hfirst : (outcome n).error = none := h 0 (Nat.succ_pos _)
      have hpos := ((outcome n).returned hfirst).ne'
      have hlater : ∀ i < rest.length, (outcome (n + 1 + i)).error = none := by
        intro i hi
        rw [show n + 1 + i = n + (i + 1) by omega]
        exact h (i + 1) (Nat.succ_lt_succ hi)
      rw [postLoop_of_returns hfirst, ih (n + 1) _ hlater, List.mapIdx_cons, postCommand,
        if_neg hpos, List.append_assoc]
      simp only [Nat.add_zero, List.singleton_append, Nat.add_assoc, Nat.add_comm 1]

theorem searchItems_state (h : (searchItems outcome items).error = none) :
    (searchItems outcome items).state =
      (slices commandSearchChunk items).mapIdx fun n chunk => ⟨chunk, (outcome n).accepted⟩ := by
  have hloop := postLoop_complete outcome (slices commandSearchChunk items) 0 []
    (by simpa only [Nat.zero_add] using searchItems_error_iff.mp h)
  simp only [Nat.zero_add, List.nil_append] at hloop
  exact hloop

/-- Where every command returns, none raises. -/
theorem searchItems_answered (h : ∀ n, (outcome n).error = none) :
    (searchItems outcome items).error = none :=
  searchItems_error_iff.mpr fun n _ => h n

end Items

end Nebularr
