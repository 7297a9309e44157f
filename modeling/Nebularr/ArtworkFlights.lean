import Nebularr.ArtworkCache

/-!
# Concurrent requests for one image

`ArtworkService.get` and the `warm` tasks of `prefetch`, any number of them at
once.  A task that misses the cache waits for the lock of its key, a `warm` task
for a permit of its prefetch first, and looks again before it downloads.
`_store` runs in a thread, which goes on when its task is cancelled; by then the
lock is free again.  `enforce_cap`, `trim_for_live`, `clear` and `_prune` may
remove any files at any time.

`FlightEffect` is what a step can do, with its guards.
-/

namespace Nebularr

deriving instance DecidableEq for Sha
deriving instance DecidableEq for ArtKey

/-! ## Tasks -/

/-- `PREFETCH_CONCURRENCY`. -/
def prefetchConcurrency : ℕ := 4

/-- What became of a download. -/
inductive FlightEnd
  /-- `os.replace` has put the file in its place. -/
  | kept
  /-- The bytes were returned, and nothing was stored. -/
  | unkept
  /-- No image came, or it could not be written. -/
  | failed
  | cancelled
deriving DecidableEq

/-- How far a task is.  `held` is false once the task was cancelled, and only
the thread of `_store` goes on. -/
inductive FlightStage
  | new
  /-- It has missed the cache, and waits for a permit or for the lock. -/
  | waiting
  /-- `async with semaphore`, waiting for the lock. -/
  | permitted
  | fetching
  | storing (held : Bool) (type : ImageType) (size : ℕ)
  /-- After `os.replace`. -/
  | placed (held : Bool) (type : ImageType)
  /-- In `_maybe_enforce_cap`. -/
  | leaving
  | done
deriving DecidableEq

namespace FlightStage

/-- Inside `async with self._lock_for(sha)`. -/
def locks : FlightStage → Bool
  | .fetching | .leaving => true
  | .storing held _ _ | .placed held _ => held
  | _ => false

/-- Inside `async with semaphore`. -/
def permits : FlightStage → Bool
  | .permitted => true
  | stage => stage.locks

/-- Downloading, or about to store what was downloaded. -/
def flies : FlightStage → Bool
  | .fetching => true
  | .storing held _ _ => held
  | _ => false

end FlightStage

/-- A call of `get`, or of `warm` with the semaphore of its prefetch. -/
structure Flight where
  key : ArtKey
  semaphore : Option ℕ
  stage : FlightStage
deriving DecidableEq

namespace Flight

/-- It is its turn to take the lock. -/
def atLock (t : Flight) : Bool :=
  match t.semaphore, t.stage with
  | none, .waiting => true
  | some _, .permitted => true
  | _, _ => false

def holdsLock (digits : List Char) (t : Flight) : Bool :=
  decide (t.key.sha.digits = digits) && t.stage.locks

def holdsPermit (j : ℕ) (t : Flight) : Bool :=
  decide (t.semaphore = some j) && t.stage.permits

def flies (key : ArtKey) (t : Flight) : Bool := decide (t.key = key) && t.stage.flies

end Flight

/-- The service: its files, its tasks, `_locks`, and the free permits of each
prefetch's semaphore; and what has happened so far: the downloads that were
started, how they ended, and the files that were removed. -/
structure Flights where
  cache : ArtCache
  flights : List Flight := []
  locked : List Char → Bool := fun _ => false
  semaphores : List ℕ := []
  started : List ArtKey := []
  ended : List (ArtKey × FlightEnd) := []
  removed : List ArtPath := []

inductive FlightMove
  | look (now : ℕ)
  | permit
  | acquire (now : ℕ)
  | fetchFails
  /-- `keep`: whether the mode and the sample for the sign-in wall keep it. -/
  | fetched (type : ImageType) (size : ℕ) (keep : Bool)
  | place (now : ℕ)
  | storeFails
  | unlinkStale (p : ArtPath)
  | storeDone
  | leave
  | cancel
deriving DecidableEq

inductive FlightAction
  | get (key : ArtKey)
  | prefetch (wanted : List ArtKey)
  | move (i : ℕ) (m : FlightMove)
  /-- `enforce_cap`, `trim_for_live`, `clear` or `_prune`. -/
  | remove (paths : List ArtPath)
deriving DecidableEq

namespace Flights

def goto (s : Flights) (i : ℕ) (t : Flight) (stage : FlightStage) : Flights :=
  { s with flights := s.flights.set i { t with stage := stage } }

/-- `os.utime`, by `_serve_cached`; `warm` only looks. -/
def serve (s : Flights) (t : Flight) (p : ArtPath) (now : ℕ) : Flights :=
  if t.semaphore = none then { s with cache := s.cache.utime p now } else s

/-- The end of `async with semaphore`. -/
def giveBack (s : Flights) (t : Flight) : Flights :=
  match t.semaphore with
  | none => s
  | some j => { s with semaphores := s.semaphores.modify j (· + 1) }

/-- The end of `async with semaphore, self._lock_for(sha)`. -/
def exit (s : Flights) (i : ℕ) (t : Flight) (stage : FlightStage) : Flights :=
  { (s.goto i t stage).giveBack t with locked := Function.update s.locked t.key.sha.digits false }

def record (s : Flights) (t : Flight) (e : FlightEnd) : Flights :=
  { s with ended := (t.key, e) :: s.ended }

/-- `path.unlink(missing_ok=True)` for each of the paths. -/
def unlink (s : Flights) (paths : List ArtPath) : Flights :=
  { s with
    cache := s.cache.unlink paths
    removed := (s.cache.files.filter fun f => paths.contains f.path).map ArtFile.path ++ s.removed }

/-- The lock is taken, and a download is started. -/
def begin (s : Flights) (i : ℕ) (t : Flight) : Flights :=
  { s.goto i t .fetching with
    locked := Function.update s.locked t.key.sha.digits true
    started := t.key :: s.started }

/-- `os.replace(tmp, final)`. -/
def place (s : Flights) (i : ℕ) (t : Flight) (held : Bool) (type : ImageType) (size now : ℕ) :
    Flights :=
  let placed := { s.goto i t (.placed held type) with
    cache := s.cache.replace ⟨t.key.path type, size, now⟩ }
  if held then placed.record t .kept else placed

/-- One step of a task. -/
def move (s : Flights) (i : ℕ) (t : Flight) : FlightMove → Option Flights
  | .look now =>
      if t.stage = .new then
        match ArtState.cachedPath t.key s.cache.files with
        | some p => some ((s.serve t p now).goto i t .done)
        | none => some (s.goto i t .waiting)
      else none
  | .permit =>
      match t.stage, t.semaphore with
      | .waiting, some j =>
          if 0 < s.semaphores.getD j 0 then
            some { s.goto i t .permitted with semaphores := s.semaphores.modify j (· - 1) }
          else none
      | _, _ => none
  | .acquire now =>
      if t.atLock = true ∧ s.locked t.key.sha.digits = false then
        match ArtState.cachedPath t.key s.cache.files with
        | some p => some (((s.serve t p now).goto i t .done).giveBack t)
        | none => some (s.begin i t)
      else none
  | .fetchFails => if t.stage = .fetching then some ((s.exit i t .done).record t .failed) else none
  | .fetched type size keep =>
      if t.stage = .fetching then
        if keep then some (s.goto i t (.storing true type size))
        else if t.semaphore = none then some ((s.exit i t .done).record t .unkept)
        else none
      else none
  | .place now =>
      match t.stage with
      | .storing held type size => some (s.place i t held type size now)
      | _ => none
  | .storeFails =>
      match t.stage with
      | .storing true _ _ => some ((s.exit i t .done).record t .failed)
      | .storing false _ _ => some (s.goto i t .done)
      | _ => none
  | .unlinkStale p =>
      match t.stage with
      | .placed _ type =>
          if t.key.globs p && p != t.key.path type then some (s.unlink [p]) else none
      | _ => none
  -- The glob may have missed what came later, and an `unlink` may have raised.
  | .storeDone =>
      match t.stage with
      | .placed true _ => some (s.goto i t .leaving)
      | .placed false _ => some (s.goto i t .done)
      | _ => none
  | .leave => if t.stage = .leaving then some (s.exit i t .done) else none
  | .cancel =>
      match t.stage with
      | .new | .waiting => some (s.goto i t .done)
      | .permitted => some ((s.goto i t .done).giveBack t)
      | .fetching => some ((s.exit i t .done).record t .cancelled)
      | .storing true type size =>
          some ((s.exit i t (.storing false type size)).record t .cancelled)
      | .placed true type => some (s.exit i t (.placed false type))
      | .leaving => some (s.exit i t .done)
      | _ => none

end Flights

/-- One action; `none` where it cannot happen. -/
def flightStep (s : Flights) : FlightAction → Option Flights
  | .get key => some { s with flights := s.flights ++ [⟨key, none, .new⟩] }
  | .prefetch wanted =>
      some { s with
        flights := s.flights ++ wanted.map fun key => ⟨key, some s.semaphores.length, .new⟩
        semaphores := s.semaphores ++ [prefetchConcurrency] }
  | .move i m => s.flights[i]?.bind fun t => s.move i t m
  | .remove paths => some (s.unlink paths)

/-! ## What an action does -/

namespace FlightStage

/-- Outside both `async with`s. -/
def outside (stage : FlightStage) : Bool := !stage.permits

/-- Outside there is no lock. -/
theorem locks_of_outside {stage : FlightStage} (h : stage.outside = true) :
    stage.locks = false := by
  cases stage <;> simp_all [outside, permits]

/-- Outside there is no permit. -/
theorem permits_of_outside {stage : FlightStage} (h : stage.outside = true) :
    stage.permits = false := by
  simpa [outside] using h

/-- Who is inside the lock has a permit. -/
theorem permits_of_locks {stage : FlightStage} (h : stage.locks = true) : stage.permits = true := by
  cases stage <;> simp_all [permits, locks]

/-- A download runs inside the lock. -/
theorem locks_of_flies {stage : FlightStage} (h : stage.flies = true) : stage.locks = true := by
  cases stage <;> simp_all [flies, locks]

/-- Outside there is no download. -/
theorem flies_of_outside {stage : FlightStage} (h : stage.outside = true) :
    stage.flies = false := by
  cases stage <;> simp_all [outside, permits, locks, flies]

end FlightStage

/-- Whether `_cached_path` finds a file of a key. -/
def ArtCache.has (c : ArtCache) (key : ArtKey) : Bool := c.files.any fun f => key.serves f.path

/-- Nothing is found if no file is there. -/
theorem ArtState.cachedPath_eq_none {c : ArtCache} {key : ArtKey} :
    ArtState.cachedPath key c.files = none ↔ c.has key = false := by
  rw [ArtState.cachedPath, Option.map_eq_none_iff, ArtCache.has, List.any_eq_false,
    List.find?_eq_none]

/-- Whether a file is there is a matter of the paths. -/
theorem ArtCache.has_congr {c c' : ArtCache}
    (h : c.files.map ArtFile.path = c'.files.map ArtFile.path)
    (key : ArtKey) : c.has key = c'.has key := by
  have hpaths (d : ArtCache) : d.has key = (d.files.map ArtFile.path).any key.serves := by
    rw [List.any_map]
    rfl
  rw [hpaths, hpaths, h]

/-- A touch moves no file. -/
theorem ArtCache.paths_utime (c : ArtCache) (p : ArtPath) (now : ℕ) :
    (c.utime p now).files.map ArtFile.path = c.files.map ArtFile.path := by
  rw [ArtCache.utime, List.map_map]
  apply List.map_congr_left
  intro f _
  by_cases h : f.path = p <;> simp [h]

open Flights in
/-- The effects that actions have. -/
inductive FlightEffect (s : Flights) : Flights → Prop
  | arrive (new : List Flight) (semaphores : List ℕ)
      (hsemaphores : semaphores = s.semaphores ∨ semaphores = s.semaphores ++ [prefetchConcurrency])
      (hnew : ∀ t ∈ new, t.stage = .new ∧ ∀ j, t.semaphore = some j → j < semaphores.length) :
      FlightEffect s { s with flights := s.flights ++ new, semaphores := semaphores }
  /-- A task goes on outside, and may have served a file. -/
  | outside (i : ℕ) (t : Flight) (stage : FlightStage) (cache : ArtCache)
    (ht : s.flights[i]? = some t)
      (hpaths : cache.files.map ArtFile.path = s.cache.files.map ArtFile.path)
      (hfrom : t.stage.outside = true) (hto : stage.outside = true) :
      FlightEffect s ({ s with cache := cache }.goto i t stage)
  | permit (i : ℕ) (t : Flight) (j : ℕ) (ht : s.flights[i]? = some t)
    (hfrom : t.stage.outside = true)
      (hsemaphore : t.semaphore = some j) (hfree : 0 < s.semaphores.getD j 0) :
      FlightEffect s { s.goto i t .permitted with semaphores := s.semaphores.modify j (· - 1) }
  /-- A task that was waiting for the lock leaves, with or without a file. -/
  | back (i : ℕ) (t : Flight) (ht : s.flights[i]? = some t) (hfrom : t.stage = .permitted) :
      FlightEffect s ((s.goto i t .done).giveBack t)
  | begin (i : ℕ) (t : Flight) (ht : s.flights[i]? = some t) (hat : t.atLock = true)
      (hfree : s.locked t.key.sha.digits = false) (hmiss : s.cache.has t.key = false) :
      FlightEffect s (s.begin i t)
  /-- A task goes on inside. -/
  | inside (i : ℕ) (t : Flight) (stage : FlightStage) (ht : s.flights[i]? = some t)
      (hfrom : t.stage.locks = true) (hto : stage.locks = true)
        (hflies : stage.flies = t.stage.flies) :
      FlightEffect s (s.goto i t stage)
  /-- A download ends without a file. -/
  | finish (i : ℕ) (t : Flight) (stage : FlightStage) (e : FlightEnd) (ht : s.flights[i]? = some t)
      (hfrom : t.stage.flies = true) (hto : stage.outside = true) (hend : e ≠ .kept) :
      FlightEffect s ((s.exit i t stage).record t e)
  | place (i : ℕ) (t : Flight) (held : Bool) (type : ImageType) (size now : ℕ)
      (ht : s.flights[i]? = some t) (hfrom : t.stage = .storing held type size) :
      FlightEffect s (s.place i t held type size now)
  | exit (i : ℕ) (t : Flight) (stage : FlightStage) (ht : s.flights[i]? = some t)
      (hfrom : t.stage.locks = true) (hlanded : t.stage.flies = false)
        (hto : stage.outside = true) :
      FlightEffect s (s.exit i t stage)
  | unlink (paths : List ArtPath) : FlightEffect s (s.unlink paths)

section

variable {s s' : Flights} {i : ℕ} {t : Flight}

/-- A hit: the task leaves with the file. -/
theorem flightEffect_hit (ht : s.flights[i]? = some t) (p : ArtPath) (now : ℕ)
    (hfrom : t.stage.outside = true) : FlightEffect s ((s.serve t p now).goto i t .done) := by
  unfold Flights.serve
  split
  · exact .outside i t .done _ ht (s.cache.paths_utime p now) hfrom rfl
  · exact .outside i t .done s.cache ht rfl hfrom rfl

/-- A hit under the lock, which is free again at once. -/
theorem flightEffect_hit_at_lock (ht : s.flights[i]? = some t) (p : ArtPath) (now : ℕ)
    (hat : t.atLock = true) : FlightEffect s (((s.serve t p now).goto i t .done).giveBack t) := by
  obtain ⟨key, semaphore, stage⟩ := t
  cases semaphore with
  | none =>
      have hfrom : stage.outside = true := by
        cases stage <;> simp_all [Flight.atLock, FlightStage.outside, FlightStage.permits,
          FlightStage.locks]
      exact flightEffect_hit ht p now hfrom
  | some j =>
      have hfrom : stage = .permitted := by cases stage <;> simp_all [Flight.atLock]
      exact .back i _ ht hfrom

/-- **What a cancellation does**, stage by stage. -/
theorem flightEffect_cancel (ht : s.flights[i]? = some t) (h : s.move i t .cancel = some s') :
    FlightEffect s s' := by
  obtain ⟨key, semaphore, stage⟩ := t
  cases stage with
  | new => exact Option.some.inj h ▸ .outside i _ .done s.cache ht rfl rfl rfl
  | waiting => exact Option.some.inj h ▸ .outside i _ .done s.cache ht rfl rfl rfl
  | permitted => exact Option.some.inj h ▸ .back i _ ht rfl
  | fetching => exact Option.some.inj h ▸ .finish i _ .done .cancelled ht rfl rfl nofun
  | storing held type size =>
      cases held with
      | true =>
          exact Option.some.inj h ▸ .finish i _
            (.storing false type size) .cancelled ht rfl rfl nofun
      | false => cases h
  | placed held type =>
      cases held with
      | true => exact Option.some.inj h ▸ .exit i _ (.placed false type) ht rfl rfl rfl
      | false => cases h
  | leaving => exact Option.some.inj h ▸ .exit i _ .done ht rfl rfl rfl
  | done => cases h

/-- **What a move does**, move by move. -/
theorem flightEffect_of_move {m : FlightMove} (ht : s.flights[i]? = some t)
    (h : s.move i t m = some s') : FlightEffect s s' := by
  cases m with
  | look now =>
      simp only [Flights.move] at h
      split at h
      next hnew =>
        have hfrom : t.stage.outside = true := by rw [hnew]; rfl
        split at h
        next p _ => exact Option.some.inj h ▸ flightEffect_hit ht p now hfrom
        next => exact Option.some.inj h ▸ .outside i t .waiting s.cache ht rfl hfrom rfl
      next => cases h
  | permit =>
      simp only [Flights.move] at h
      split at h
      next hstage hsemaphore =>
        split at h
        next hfree =>
          exact Option.some.inj h ▸ .permit i t _ ht (by rw [hstage]; rfl) hsemaphore hfree
        next => cases h
      next => cases h
  | acquire now =>
      simp only [Flights.move] at h
      split at h
      next hat =>
        split at h
        next p _ => exact Option.some.inj h ▸ flightEffect_hit_at_lock ht p now hat.1
        next hmiss =>
          exact Option.some.inj h ▸ .begin i t ht hat.1 hat.2 (ArtState.cachedPath_eq_none.mp hmiss)
      next => cases h
  | fetchFails =>
      simp only [Flights.move] at h
      split at h
      next hstage =>
        exact Option.some.inj h ▸ .finish i t .done .failed ht (by rw [hstage]; rfl) rfl nofun
      next => cases h
  | fetched type size keep =>
      simp only [Flights.move] at h
      split at h
      next hstage =>
        split at h
        next =>
          exact Option.some.inj h ▸ .inside i t (.storing true type size) ht
            (by rw [hstage]; rfl) rfl
            (by rw [hstage]; rfl)
        next =>
          split at h
          next =>
            exact Option.some.inj h ▸ .finish i t .done .unkept ht (by rw [hstage]; rfl) rfl nofun
          next => cases h
      next => cases h
  | place now =>
      simp only [Flights.move] at h
      split at h
      next hstage => exact Option.some.inj h ▸ .place i t _ _ _ now ht hstage
      next => cases h
  | storeFails =>
      simp only [Flights.move] at h
      split at h
      next hstage =>
        exact Option.some.inj h ▸ .finish i t .done .failed ht (by rw [hstage]; rfl) rfl nofun
      next hstage =>
        exact Option.some.inj h ▸ .outside i t .done s.cache ht rfl (by rw [hstage]; rfl) rfl
      next => cases h
  | unlinkStale p =>
      simp only [Flights.move] at h
      split at h
      next =>
        split at h
        next => exact Option.some.inj h ▸ .unlink [p]
        next => cases h
      next => cases h
  | storeDone =>
      simp only [Flights.move] at h
      split at h
      next hstage =>
        exact Option.some.inj h ▸ .inside i t .leaving ht (by rw [hstage]; rfl) rfl
          (by rw [hstage]; rfl)
      next hstage =>
        exact Option.some.inj h ▸ .outside i t .done s.cache ht rfl (by rw [hstage]; rfl) rfl
      next => cases h
  | leave =>
      simp only [Flights.move] at h
      split at h
      next hstage =>
        exact Option.some.inj h ▸ .exit i t .done ht (by rw [hstage]; rfl) (by rw [hstage]; rfl) rfl
      next => cases h
  | cancel => exact flightEffect_cancel ht h

/-- **What a step does.** -/
theorem flightEffect_of_step {a : FlightAction} (h : flightStep s a = some s') :
    FlightEffect s s' := by
  cases a with
  | get key =>
      refine Option.some.inj h ▸ .arrive [⟨key, none, .new⟩] s.semaphores (Or.inl rfl) ?_
      intro t ht
      rw [List.mem_singleton.mp ht]
      exact ⟨rfl, nofun⟩
  | prefetch wanted =>
      refine Option.some.inj h ▸ .arrive _ _ (Or.inr rfl) ?_
      intro t ht
      obtain ⟨key, -, rfl⟩ := List.mem_map.mp ht
      refine ⟨rfl, fun j hj => ?_⟩
      rw [← Option.some.inj hj, List.length_append]
      exact Nat.lt_succ_self _
  | move i m =>
      obtain ⟨t, ht, hmove⟩ := Option.bind_eq_some_iff.mp h
      exact flightEffect_of_move ht hmove
  | remove paths => exact Option.some.inj h ▸ .unlink paths

end

end Nebularr
