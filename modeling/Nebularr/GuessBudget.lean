import Nebularr.LoginLimiter

/-!
# How many passwords a client can try

A login is asked for, its password is checked in another thread, and only then
is the failure registered: a client may have several checks under way before the
first of them counts against it.  The tally below counts the checks that were
begun.

In a stretch shorter than `lockout_seconds` the limiter opens to a client once at
most.  A failure that reaches the threshold shuts it out for the rest of the
stretch; until then each check begun is on record or still under way.
-/

namespace Nebularr

variable {κ : Type} [DecidableEq κ]

/-- A login world, and how many checks of one client were begun. -/
structure GuessTally (κ : Type) where
  world : LoginWorld κ
  begun : ℕ

namespace GuessTally

/-- Nobody has tried anything. -/
def start (now : ℕ) : GuessTally κ := ⟨LoginWorld.start now, 0⟩

/-- What a client has on record. -/
def record (s : GuessTally κ) (key : κ) : FailureRecord := s.world.failures.get key

variable (limiter : LoginRateLimiter)

/-- Whether an event begins a check of the client. -/
def begins (key : κ) (s : LoginWorld κ) : LoginEvent κ → Bool
  | .ask asked => decide (asked = key) && !limiter.isLocked s.now s.failures key
  | _ => false

/-- A step of the world, tallied. -/
def step (key : κ) (s : GuessTally κ) (e : LoginEvent κ) : Option (GuessTally κ) :=
  (s.world.step limiter e).map fun world =>
    { world := world
      begun := s.begun + (begins limiter key s.world e).toNat }

/-- A client that never finds the password, that has at most `k` checks under
way, and whose record no other client's failure evicts. -/
def Guessing (key : κ) (k : ℕ) (s : GuessTally κ) : LoginEvent κ → Prop
  | .ask asked =>
      asked = key →
        limiter.isLocked s.world.now s.world.failures key = true ∨ s.world.checking key < k
  | .checked client authenticated =>
      if client = key then authenticated = false
      else key ∉ LoginRateLimiter.evicted s.world.failures
  | .wait _ => True

/-- Where a client is in a stretch that began at `since`, when it had begun
`spent` checks. -/
structure InStretch (key : κ) (k since spent : ℕ) (s : GuessTally κ) : Prop where
  underWay : s.world.checking key ≤ k
  time : since ≤ s.world.now
  /-- Below the threshold a check of the stretch is on record or under way. -/
  counted : (s.record key).count < limiter.maxFailures →
    s.begun ≤ spent + (s.record key).count + s.world.checking key
  /-- With a full record from before, nothing has failed yet. -/
  rested : limiter.maxFailures ≤ (s.record key).count → (s.record key).lastFailure < since →
    s.begun ≤ spent + s.world.checking key
  closed : limiter.maxFailures ≤ (s.record key).count → since ≤ (s.record key).lastFailure →
    s.begun ≤ spent + (limiter.maxFailures - 1 + k)

variable {limiter} {key : κ} {k since spent : ℕ} {s t : GuessTally κ} {e : LoginEvent κ}

theorem isLocked_iff : limiter.isLocked s.world.now s.world.failures key = true ↔
    limiter.maxFailures ≤ (s.record key).count ∧
      s.world.now < (s.record key).lastFailure + limiter.lockoutSeconds := by
  rw [LoginRateLimiter.isLocked, Bool.and_eq_true, decide_eq_true_iff, decide_eq_true_iff, record]

/-- In each phase the checks of the stretch are few enough. -/
theorem InStretch.begun_le (hs : InStretch limiter key k since spent s) :
    s.begun ≤ spent + (limiter.maxFailures - 1 + k) := by
  obtain ⟨hunderWay, -, hcounted, hrested, hclosed⟩ := hs
  by_cases hopen : (s.record key).count < limiter.maxFailures
  · have hbegun := hcounted hopen
    omega
  · by_cases hbefore : (s.record key).lastFailure < since
    · have hbegun := hrested (Nat.not_lt.mp hopen) hbefore
      omega
    · exact hclosed (Nat.not_lt.mp hopen) (Nat.not_lt.mp hbefore)

/-- A stretch begins. -/
theorem inStretch_self (hunder : s.world.checking key ≤ k) :
    InStretch limiter key k s.world.now s.begun s where
  underWay := hunder
  time := le_rfl
  counted := fun _ => by omega
  rested := fun _ _ => Nat.le_add_right _ _
  closed := fun _ _ => Nat.le_add_right _ _

/-- What does not concern the client. -/
theorem InStretch.congr (hs : InStretch limiter key k since spent s)
    (hrecord : t.record key = s.record key)
    (hchecking : t.world.checking key = s.world.checking key) (hbegun : t.begun = s.begun)
    (hnow : s.world.now ≤ t.world.now) : InStretch limiter key k since spent t where
  underWay := hchecking ▸ hs.underWay
  time := hs.time.trans hnow
  counted := by rw [hrecord, hbegun, hchecking]; exact hs.counted
  rested := by rw [hrecord, hbegun, hchecking]; exact hs.rested
  closed := by rw [hrecord, hbegun]; exact hs.closed

/-- **A check is begun**: the client is not shut out, so its record is not one of
the stretch that is full. -/
theorem inStretch_ask (hs : InStretch limiter key k since spent s)
    (hwithin : s.world.now < since + limiter.lockoutSeconds) (hroom : s.world.checking key < k)
    (hfree : limiter.isLocked s.world.now s.world.failures key = false) :
    InStretch limiter key k since spent
      { world := { s.world with
          checking := Function.update s.world.checking key (s.world.checking key + 1) }
        begun := s.begun + 1 } := by
  have hopen : limiter.maxFailures ≤ (s.record key).count → (s.record key).lastFailure < since := by
    intro hfull
    by_contra hlate
    have hlocked : limiter.isLocked s.world.now s.world.failures key = true :=
      isLocked_iff.mpr ⟨hfull, by omega⟩
    rw [hfree] at hlocked
    cases hlocked
  refine ⟨?_, hs.time, fun hbelow => ?_, fun hfull hbefore => ?_, fun hfull hlate => ?_⟩
  · simp only [Function.update_self]
    exact hroom
  · have hbegun := hs.counted hbelow
    simp only [Function.update_self]
    exact Nat.succ_le_succ hbegun
  · have hbegun := hs.rested hfull hbefore
    simp only [Function.update_self]
    exact Nat.succ_le_succ hbegun
  · exact absurd (hopen hfull) (Nat.not_lt.mpr hlate)

/-- What a failure of its own leaves on record. -/
theorem record_registerFailure (m : FailureMap κ) (now : ℕ) :
    (limiter.registerFailure now m key).get key =
      ⟨(if limiter.maxFailures ≤ (m.get key).count ∧
            (m.get key).lastFailure + limiter.lockoutSeconds ≤ now
        then 0 else (m.get key).count) + 1, now⟩ := by
  rw [LoginRateLimiter.registerFailure, FailureMap.get_set_self]

/-- **A check fails.** -/
theorem inStretch_fail (hs : InStretch limiter key k since spent s)
    (hwithin : s.world.now < since + limiter.lockoutSeconds)
    (ht : t = { world := { s.world with
                  checking := Function.update s.world.checking key (s.world.checking key - 1)
                  failures := limiter.registerFailure s.world.now s.world.failures key }
                begun := s.begun }) :
    InStretch limiter key k since spent t := by
  have hbound := hs.begun_le
  have hnow : t.world.now = s.world.now := by rw [ht]
  have hbegun : t.begun = s.begun := by rw [ht]
  have hchecking : t.world.checking key = s.world.checking key - 1 := by rw [ht]; simp
  have hrecord : t.record key = ⟨(if limiter.maxFailures ≤ (s.record key).count ∧
      (s.record key).lastFailure + limiter.lockoutSeconds ≤ s.world.now then 0
        else (s.record key).count) + 1, s.world.now⟩ := by
    rw [ht]
    exact record_registerFailure s.world.failures s.world.now
  obtain ⟨hunderWay, htime, hcounted, hrested, hclosed⟩ := hs
  have hlate : since ≤ (t.record key).lastFailure := by
    rw [hrecord]
    exact htime
  refine ⟨?_, ?_, fun hbelow => ?_, fun _ hbefore => ?_, fun _ _ => ?_⟩
  · rw [hchecking]
    omega
  · rw [hnow]
    exact htime
  · rw [hrecord] at hbelow ⊢
    rw [hbegun, hchecking]
    by_cases hover : limiter.maxFailures ≤ (s.record key).count ∧
        (s.record key).lastFailure + limiter.lockoutSeconds ≤ s.world.now
    · -- the lockout of an earlier stretch is over: the count starts again
      have hold := hrested hover.1 (by omega)
      rw [if_pos hover]
      simp only
      omega
    · rw [if_neg hover] at hbelow ⊢
      simp only at hbelow ⊢
      have hold := hcounted (by omega)
      omega
  · exact absurd hbefore (Nat.not_lt.mpr hlate)
  · rw [hbegun]
    exact hbound

theorem now_le_of_step (h : step limiter key s e = some t) : s.world.now ≤ t.world.now := by
  obtain ⟨world, hworld, rfl⟩ := Option.map_eq_some_iff.mp h
  cases e with
  | wait ticks =>
      obtain rfl := Option.some.inj hworld
      exact Nat.le_add_right _ _
  | ask asked =>
      simp only [LoginWorld.step] at hworld
      split at hworld <;> (obtain rfl := Option.some.inj hworld; exact le_rfl)
  | checked client authenticated =>
      simp only [LoginWorld.step] at hworld
      split at hworld
      · cases hworld
      · obtain rfl := Option.some.inj hworld
        exact le_rfl

/-- **A step within the stretch.** -/
theorem inStretch_step (hs : InStretch limiter key k since spent s)
    (hwithin : s.world.now < since + limiter.lockoutSeconds) (hguess : Guessing limiter key k s e)
    (h : step limiter key s e = some t) : InStretch limiter key k since spent t := by
  obtain ⟨world, hworld, rfl⟩ := Option.map_eq_some_iff.mp h
  cases e with
  | wait ticks =>
      obtain rfl := Option.some.inj hworld
      exact hs.congr rfl rfl rfl (Nat.le_add_right _ _)
  | ask asked =>
      simp only [LoginWorld.step] at hworld
      split at hworld
      · next hlocked =>
          obtain rfl := Option.some.inj hworld
          have hnone : begins limiter key s.world (.ask asked) = false := by
            by_cases hkey : asked = key
            · simp [begins, ← hkey, hlocked]
            · simp [begins, hkey]
          exact hs.congr rfl rfl (by simp [hnone]) le_rfl
      · next hfree =>
          obtain rfl := Option.some.inj hworld
          rw [Bool.not_eq_true] at hfree
          by_cases hkey : asked = key
          · subst hkey
            have hroom := (hguess rfl).resolve_left (by rw [hfree]; decide)
            have hone : begins limiter asked s.world (.ask asked) = true := by
              simp [begins, hfree]
            rw [hone]
            exact inStretch_ask hs hwithin hroom hfree
          · refine hs.congr rfl ?_ (by simp [begins, hkey]) le_rfl
            exact Function.update_of_ne (Ne.symm hkey) _ _
  | checked client authenticated =>
      simp only [LoginWorld.step] at hworld
      split at hworld
      · cases hworld
      · obtain rfl := Option.some.inj hworld
        by_cases hkey : client = key
        · subst hkey
          obtain rfl : authenticated = false := by simpa [Guessing] using hguess
          have hfail := inStretch_fail hs hwithin rfl
          simpa [begins] using hfail
        · have hkept : key ∉ LoginRateLimiter.evicted s.world.failures := by
            simpa only [Guessing, if_neg hkey] using hguess
          refine hs.congr ?_ (Function.update_of_ne (Ne.symm hkey) _ _) (by simp [begins])
            le_rfl
          cases authenticated with
          | true => exact FailureMap.get_drop (by simpa using Ne.symm hkey)
          | false => exact LoginRateLimiter.get_registerFailure_of_ne (Ne.symm hkey) hkept

/-- The client never has more checks under way than it may. -/
theorem checking_le_of_reaches {now : ℕ}
    (h : Reaches (step limiter key) (Guessing limiter key k) (start now) s) :
    s.world.checking key ≤ k := by
  have hkept : ∀ (s : GuessTally κ) e t, s.world.checking key ≤ k → Guessing limiter key k s e →
      step limiter key s e = some t → t.world.checking key ≤ k := ?_
  · exact h.invariant (Nat.zero_le k) hkept
  intro s e t hs hguess hstep
  obtain ⟨world, hworld, rfl⟩ := Option.map_eq_some_iff.mp hstep
  cases e with
  | wait ticks =>
      obtain rfl := Option.some.inj hworld
      exact hs
  | ask asked =>
      simp only [LoginWorld.step] at hworld
      split at hworld
      · obtain rfl := Option.some.inj hworld
        exact hs
      · next hfree =>
          obtain rfl := Option.some.inj hworld
          by_cases hkey : asked = key
          · subst hkey
            have hroom := (hguess rfl).resolve_left hfree
            simp only [Function.update_self]
            exact hroom
          · simp only [Function.update_of_ne (Ne.symm hkey)]
            exact hs
  | checked client authenticated =>
      simp only [LoginWorld.step] at hworld
      split at hworld
      · cases hworld
      · obtain rfl := Option.some.inj hworld
        by_cases hkey : client = key
        · subst hkey
          simp only [Function.update_self]
          exact (Nat.sub_le _ _).trans hs
        · simp only [Function.update_of_ne (Ne.symm hkey)]
          exact hs

/-- **How many passwords a client can try.**  In any run, with any other clients
and any times, a client with at most `k` checks under way at once begins at most
`maxFailures - 1 + k` checks in each stretch of `lockout_seconds`, wherever it
begins, as long as it does not find the password and nobody's failure evicts it. -/
theorem guesses_le {now : ℕ}
    (h : Reaches (step limiter key) (Guessing limiter key k) (start now) s)
    (hrun : Reaches (step limiter key) (Guessing limiter key k) s t)
    (hwithin : t.world.now < s.world.now + limiter.lockoutSeconds) :
    t.begun ≤ s.begun + (limiter.maxFailures - 1 + k) := by
  have hkept : ∀ u e u',
      (u.world.now < s.world.now + limiter.lockoutSeconds →
        InStretch limiter key k s.world.now s.begun u) →
      Guessing limiter key k u e → step limiter key u e = some u' →
      u'.world.now < s.world.now + limiter.lockoutSeconds →
        InStretch limiter key k s.world.now s.begun u' := by
    intro u e u' hu hguess hstep hlater
    have hearlier := (now_le_of_step hstep).trans_lt hlater
    exact inStretch_step (hu hearlier) hearlier hguess hstep
  have hstretch := hrun.invariant (fun _ => inStretch_self (checking_le_of_reaches h)) hkept
  exact (hstretch hwithin).begun_le

instance (limiter : LoginRateLimiter) (key : κ) (k : ℕ) (s : GuessTally κ) :
    DecidablePred (Guessing limiter key k s)
  | .ask asked => inferInstanceAs (Decidable (asked = key → _))
  | .checked client _ => inferInstanceAs (Decidable (if client = key then _ else _))
  | .wait _ => .isTrue trivial

/-- With three checks at once and the defaults, seven fit before the lockout. -/
def sevenChecks : List (LoginEvent ℕ) :=
  [.ask 0, .ask 0, .ask 0, .checked 0 false, .ask 0, .checked 0 false, .ask 0, .checked 0 false,
    .ask 0, .checked 0 false, .ask 0, .checked 0 false, .ask 0, .checked 0 false, .checked 0 false]

/-- What a client has begun that tries seven, waits, and tries seven more. -/
private theorem begun_sevenChecks :
    ((replay (guardedStep (step {} 0) (Guessing {} 0 3)) (sevenChecks ++ [.wait 40])
        (start 100)).bind fun s =>
      (replay (guardedStep (step {} 0) (Guessing {} 0 3)) sevenChecks s).map fun t =>
        (s.begun, t.begun, decide (t.world.now < s.world.now + 30))) = some (7, 14, true) := by
  decide +kernel

/-- It has used up both stretches. -/
theorem guesses_le_sevenTwice :
    ∃ s t : GuessTally ℕ, Reaches (step {} 0) (Guessing {} 0 3) (start 100) s ∧
      Reaches (step {} 0) (Guessing {} 0 3) s t ∧ s.begun = 7 ∧ t.begun = 14 ∧
      t.begun ≤ s.begun + (({} : LoginRateLimiter).maxFailures - 1 + 3) := by
  obtain ⟨s, hfirst, hrest⟩ := Option.bind_eq_some_iff.mp begun_sevenChecks
  obtain ⟨t, hsecond, hcounts⟩ := Option.map_eq_some_iff.mp hrest
  obtain ⟨hs, ht, hwithin⟩ : s.begun = 7 ∧ t.begun = 14 ∧ t.world.now < s.world.now + 30 := by
    simpa using hcounts
  have hreach := reaches_of_replay_guardedStep hfirst
  have hrun := reaches_of_replay_guardedStep hsecond
  exact ⟨s, t, hreach, hrun, hs, ht, guesses_le hreach hrun hwithin⟩

end GuessTally

end Nebularr
