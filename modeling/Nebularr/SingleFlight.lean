import Nebularr.ArtworkFlights

/-!
# Single flight

However many tasks ask for an image, and however they interleave, it is
downloaded once, and once more for each time that its file was removed or that
a download brought no file (`downloads_le`).  A task that is cancelled while its
thread is storing is one of those: the thread may put a file in its place after
the next task has looked for one.
-/

/-! ## Counting the members of a list -/

section Counting

variable {α : Type} {p : α → Bool} {l : List α} {i : ℕ} {a : α}

/-- What is replaced no longer counts, what replaces it does. -/
theorem countP_set_add (b : α) (h : l[i]? = some a) :
    (l.set i b).countP p + (p a).toNat = l.countP p + (p b).toNat := by
  induction l generalizing i with
  | nil => simp at h
  | cons x rest ih =>
      cases i with
      | zero =>
          obtain rfl : x = a := by simpa using h
          cases hx : p x <;> cases hb : p b <;> simp [hx, hb]
      | succ i =>
          have hrest := ih (i := i) (by simpa using h)
          simp only [List.set_cons_succ, List.countP_cons]
          omega

/-- What counts as much as it did before changes nothing. -/
theorem countP_set_eq (b : α) (h : l[i]? = some a) (hsame : p b = p a) :
    (l.set i b).countP p = l.countP p := by
  have hadd := countP_set_add (p := p) b h
  rw [hsame] at hadd
  omega

end Counting

namespace Nebularr

/-! ## Locks -/

/-- The suffix of a file name is the one it was given. -/
theorem suffix_append_ext {base : List Char} (hbase : base ≠ []) (type : ImageType) :
    suffix (base ++ type.ext) = type.ext := by
  obtain ⟨c, rest, hreverse⟩ := List.exists_cons_of_ne_nil (mt List.reverse_eq_nil_iff.mp hbase)
  cases type <;> simp [suffix, ImageType.ext, hreverse, List.span, List.span.loop]

/-- A file is found by its key. -/
theorem ArtKey.serves_path (key : ArtKey) (type : ImageType) :
    key.serves (key.path type) = true := by
  have hbase : key.stem ++ key.lastWrite ≠ [] := by simp [ArtKey.stem]
  have hsuffix : suffix (key.path type).name = type.ext := suffix_append_ext hbase type
  have hdot : key.stem ++ key.lastWrite ++ ['.'] <+: (key.path type).name := by
    refine (List.prefix_append_right_inj _).mpr ?_
    cases type <;> exact ⟨_, rfl⟩
  rw [ArtKey.serves, hsuffix, List.isPrefixOf_iff_prefix.mpr hdot]
  cases type <;> simp [ArtKey.path]

namespace Flights

variable {s s' : Flights} {i : ℕ} {t : Flight} {stage : FlightStage}

/-- Giving a permit back leaves the tasks; the five lemmas below say the same of
what else is kept. -/
@[simp] theorem giveBack_flights : (s.giveBack t).flights = s.flights := by
  unfold giveBack
  split <;> rfl

/-- Giving a permit back takes no lock and frees none. -/
@[simp] theorem giveBack_locked : (s.giveBack t).locked = s.locked := by
  unfold giveBack
  split <;> rfl

/-- Giving a permit back leaves the files. -/
@[simp] theorem giveBack_cache : (s.giveBack t).cache = s.cache := by
  unfold giveBack
  split <;> rfl

/-- Giving a permit back begins no download. -/
@[simp] theorem giveBack_started : (s.giveBack t).started = s.started := by
  unfold giveBack
  split <;> rfl

/-- Giving a permit back ends no download. -/
@[simp] theorem giveBack_ended : (s.giveBack t).ended = s.ended := by
  unfold giveBack
  split <;> rfl

/-- Giving a permit back removes no file. -/
@[simp] theorem giveBack_removed : (s.giveBack t).removed = s.removed := by
  unfold giveBack
  split <;> rfl

/-- A lock is taken while a task is inside, and by one task. -/
def LocksAddUp (s : Flights) : Prop :=
  ∀ digits, s.flights.countP (·.holdsLock digits) = (s.locked digits).toNat

/-- The permits of a prefetch are the free ones and those of its tasks. -/
def PermitsAddUp (s : Flights) : Prop :=
  ∀ j free, s.semaphores[j]? = some free →
    free + s.flights.countP (·.holdsPermit j) = prefetchConcurrency

/-- Tasks have the semaphores that there are. -/
def SemaphoresKnown (s : Flights) : Prop :=
  ∀ t ∈ s.flights, ∀ j, t.semaphore = some j → j < s.semaphores.length

/-- A step of a task that stays on its side of the lock. -/
theorem LocksAddUp.goto (h : s.LocksAddUp) (ht : s.flights[i]? = some t) (stage : FlightStage)
    (hsame : stage.locks = t.stage.locks) : (s.goto i t stage).LocksAddUp := by
  intro digits
  refine Eq.trans (countP_set_eq _ ht ?_) (h digits)
  simp only [Flight.holdsLock, hsame]

/-- A task that leaves the lock frees it. -/
theorem LocksAddUp.exit (h : s.LocksAddUp) (ht : s.flights[i]? = some t)
    (hfrom : t.stage.locks = true) (hto : stage.locks = false) : (s.exit i t stage).LocksAddUp := by
  intro digits
  have hadd := countP_set_add (p := (·.holdsLock digits)) { t with stage := stage } ht
  have hbefore := h digits
  have hlast : Flight.holdsLock digits { t with stage := stage } = false := by
    simp [Flight.holdsLock, hto]
  rw [hlast, Bool.toNat_false] at hadd
  simp only [Flights.exit, giveBack_flights, Flights.goto]
  by_cases hown : digits = t.key.sha.digits
  · have hfirst : t.holdsLock digits = true := by simp [Flight.holdsLock, hfrom, hown]
    have hone := Bool.toNat_le (s.locked digits)
    rw [hfirst, Bool.toNat_true] at hadd
    rw [hown, Function.update_self, Bool.toNat_false]
    rw [hown] at hadd hbefore hone
    omega
  · have hfirst : t.holdsLock digits = false := by simp [Flight.holdsLock, Ne.symm hown]
    rw [hfirst, Bool.toNat_false] at hadd
    rw [Function.update_of_ne hown]
    omega

/-- A task that takes a free lock is the only one inside. -/
theorem LocksAddUp.begin (h : s.LocksAddUp) (ht : s.flights[i]? = some t)
    (hfree : s.locked t.key.sha.digits = false) (hfrom : t.stage.locks = false) :
    (s.begin i t).LocksAddUp := by
  intro digits
  have hadd := countP_set_add (p := (·.holdsLock digits)) { t with stage := .fetching } ht
  have hbefore := h digits
  have hfirst : t.holdsLock digits = false := by simp [Flight.holdsLock, hfrom]
  rw [hfirst, Bool.toNat_false] at hadd
  simp only [Flights.begin, Flights.goto]
  by_cases hown : digits = t.key.sha.digits
  · have hlast : Flight.holdsLock digits { t with stage := .fetching } = true := by
      simp [Flight.holdsLock, hown, FlightStage.locks]
    rw [hlast, Bool.toNat_true] at hadd
    rw [hown, Function.update_self, Bool.toNat_true]
    rw [hown] at hadd hbefore
    rw [hfree, Bool.toNat_false] at hbefore
    omega
  · have hlast : Flight.holdsLock digits { t with stage := .fetching } = false := by
      simp [Flight.holdsLock, Ne.symm hown]
    rw [hlast, Bool.toNat_false] at hadd
    rw [Function.update_of_ne hown]
    omega

end Flights

/-- A task that waits for the lock does not hold it. -/
theorem locks_of_atLock {t : Flight} (h : t.atLock = true) : t.stage.locks = false := by
  obtain ⟨key, semaphore, stage⟩ := t
  cases semaphore <;> cases stage <;> simp_all [Flight.atLock, FlightStage.locks]

open Flights in
/-- **No step lets two tasks into one lock.** -/
theorem FlightEffect.locksAddUp {s s' : Flights} (h : FlightEffect s s') (hs : s.LocksAddUp) :
    s'.LocksAddUp := by
  cases h with
  | arrive new semaphores _ hnew =>
      intro digits
      have hnone : new.countP (·.holdsLock digits) = 0 := by
        rw [List.countP_eq_zero]
        intro t ht
        simp [Flight.holdsLock, (hnew t ht).1, FlightStage.locks]
      simp only [List.countP_append, hnone, Nat.add_zero]
      exact hs digits
  | outside i t stage cache ht _ hfrom hto =>
      have hsame : stage.locks = t.stage.locks := by
        rw [FlightStage.locks_of_outside hto, FlightStage.locks_of_outside hfrom]
      exact hs.goto ht stage hsame
  | permit i t j ht hfrom =>
      exact hs.goto ht .permitted (FlightStage.locks_of_outside hfrom).symm
  | back i t ht hfrom =>
      intro digits
      rw [giveBack_flights, giveBack_locked]
      exact hs.goto ht .done (by rw [hfrom]; rfl) digits
  | begin i t ht hat hfree => exact hs.begin ht hfree (locks_of_atLock hat)
  | inside i t stage ht hfrom hto => exact hs.goto ht stage (hto.trans hfrom.symm)
  | finish i t stage e ht hfrom hto =>
      exact hs.exit ht (FlightStage.locks_of_flies hfrom) (FlightStage.locks_of_outside hto)
  | place i t held type size now ht hfrom =>
      have hgoto := hs.goto ht (.placed held type) (by rw [hfrom]; rfl)
      unfold Flights.place
      split <;> exact hgoto
  | exit i t stage ht hfrom _ hto => exact hs.exit ht hfrom (FlightStage.locks_of_outside hto)
  | unlink paths => exact hs

/-! ## Permits -/

namespace Flights

variable {s s' : Flights} {i : ℕ} {t : Flight} {stage : FlightStage}

/-- A task that moves on keeps the semaphore it was given. -/
theorem SemaphoresKnown.goto (h : s.SemaphoresKnown) (ht : s.flights[i]? = some t)
    (stage : FlightStage) :
    (s.goto i t stage).SemaphoresKnown := by
  intro u hu j hj
  rcases List.mem_or_eq_of_mem_set hu with hold | rfl
  · exact h u hold j hj
  · exact h t (List.mem_of_getElem? ht) j hj

/-- Giving a permit back makes no semaphore. -/
theorem SemaphoresKnown.giveBack (h : s.SemaphoresKnown) : (s.giveBack t).SemaphoresKnown := by
  intro u hu j hj
  rw [giveBack_flights] at hu
  have hlength : (s.giveBack t).semaphores.length = s.semaphores.length := by
    unfold Flights.giveBack
    split
    · rfl
    · exact List.length_modify ..
  rw [hlength]
  exact h u hu j hj

/-- A step of a task that keeps its permit, or goes on without one. -/
theorem PermitsAddUp.goto (h : s.PermitsAddUp) (ht : s.flights[i]? = some t) (stage : FlightStage)
    (hsame : stage.permits = t.stage.permits) : (s.goto i t stage).PermitsAddUp := by
  intro j free hj
  have hcount := countP_set_eq (p := (·.holdsPermit j)) { t with stage := stage } ht
    (by simp only [Flight.holdsPermit, hsame])
  simp only [Flights.goto, hcount]
  exact h j free hj

/-- A task that leaves gives its permit back. -/
theorem PermitsAddUp.giveBack (h : s.PermitsAddUp) (ht : s.flights[i]? = some t)
    (hfrom : t.stage.permits = true) (hto : stage.permits = false) :
    ((s.goto i t stage).giveBack t).PermitsAddUp := by
  intro j free hj
  have hadd := countP_set_add (p := (·.holdsPermit j)) { t with stage := stage } ht
  have hlast : Flight.holdsPermit j { t with stage := stage } = false := by
    simp [Flight.holdsPermit, hto]
  rw [hlast, Bool.toNat_false] at hadd
  rw [giveBack_flights]
  simp only [Flights.goto]
  by_cases hown : t.semaphore = some j
  · have hfirst : t.holdsPermit j = true := by simp [Flight.holdsPermit, hfrom, hown]
    rw [hfirst, Bool.toNat_true] at hadd
    simp only [Flights.giveBack, hown, Flights.goto, List.getElem?_modify_eq] at hj
    obtain ⟨before, hbefore, rfl⟩ := Option.map_eq_some_iff.mp hj
    have hsum := h j before hbefore
    omega
  · have hfirst : t.holdsPermit j = false := by simp [Flight.holdsPermit, hown]
    have hsame : ((s.goto i t stage).giveBack t).semaphores[j]? = s.semaphores[j]? := by
      unfold Flights.giveBack
      split
      · rfl
      next k hk => exact List.getElem?_modify_ne _ _ fun hkj => hown (hkj ▸ hk)
    rw [hfirst, Bool.toNat_false] at hadd
    rw [hsame] at hj
    have hsum := h j free hj
    omega

/-- `async with semaphore`. -/
theorem PermitsAddUp.permit {j : ℕ} (h : s.PermitsAddUp) (ht : s.flights[i]? = some t)
    (hfrom : t.stage.permits = false) (hsemaphore : t.semaphore = some j)
    (hfree : 0 < s.semaphores.getD j 0) :
    PermitsAddUp { s.goto i t .permitted with semaphores := s.semaphores.modify j (· - 1) } := by
  intro k free hk
  have hadd := countP_set_add (p := (·.holdsPermit k)) { t with stage := .permitted } ht
  have hfirst : t.holdsPermit k = false := by simp [Flight.holdsPermit, hfrom]
  rw [hfirst, Bool.toNat_false] at hadd
  simp only [Flights.goto] at hk ⊢
  by_cases hown : j = k
  · subst hown
    have hlast : Flight.holdsPermit j { t with stage := .permitted } = true := by
      simp [Flight.holdsPermit, hsemaphore, FlightStage.permits]
    rw [hlast, Bool.toNat_true] at hadd
    rw [List.getElem?_modify_eq] at hk
    obtain ⟨before, hbefore, rfl⟩ := Option.map_eq_some_iff.mp hk
    have hsum := h j before hbefore
    rw [List.getD_eq_getElem?_getD, hbefore, Option.getD_some] at hfree
    omega
  · have hlast : Flight.holdsPermit k { t with stage := .permitted } = false := by
      simp [Flight.holdsPermit, hsemaphore, hown]
    rw [hlast, Bool.toNat_false] at hadd
    rw [List.getElem?_modify_ne _ _ hown] at hk
    have hsum := h k free hk
    omega

/-- New tasks have no permits, and those of a new prefetch are all free. -/
theorem PermitsAddUp.arrive {new : List Flight} {semaphores : List ℕ} (h : s.PermitsAddUp)
    (hknown : s.SemaphoresKnown)
    (hsemaphores : semaphores = s.semaphores ∨ semaphores = s.semaphores ++ [prefetchConcurrency])
    (hnew : ∀ t ∈ new, t.stage = .new) :
    PermitsAddUp { s with flights := s.flights ++ new, semaphores := semaphores } := by
  intro j free hj
  have hnone : new.countP (·.holdsPermit j) = 0 := by
    rw [List.countP_eq_zero]
    intro t ht
    simp [Flight.holdsPermit, hnew t ht, FlightStage.permits, FlightStage.locks]
  simp only [List.countP_append, hnone, Nat.add_zero] at hj ⊢
  rcases hsemaphores with rfl | rfl
  · exact h j free hj
  · by_cases hold : j < s.semaphores.length
    · rw [List.getElem?_append_left hold] at hj
      exact h j free hj
    · rw [List.getElem?_append_right (by omega)] at hj
      have hfree := List.mem_of_getElem? hj
      have hnobody : s.flights.countP (·.holdsPermit j) = 0 := by
        rw [List.countP_eq_zero]
        intro t ht hholds
        have hsemaphore : t.semaphore = some j := by
          simp only [Flight.holdsPermit, Bool.and_eq_true, decide_eq_true_eq] at hholds
          exact hholds.1
        exact hold (hknown t ht j hsemaphore)
      rw [hnobody, List.mem_singleton.mp hfree, Nat.add_zero]

end Flights

open Flights in
/-- No step takes a permit of a semaphore that was never made. -/
theorem FlightEffect.semaphoresKnown {s s' : Flights} (h : FlightEffect s s')
    (hs : s.SemaphoresKnown) : s'.SemaphoresKnown := by
  cases h with
  | arrive new semaphores hsemaphores hnew =>
      intro u hu j hj
      rcases List.mem_append.mp hu with hold | hu
      · have hlt := hs u hold j hj
        rcases hsemaphores with rfl | rfl
        · exact hlt
        · exact Nat.lt_of_lt_of_le hlt (by simp)
      · exact (hnew u hu).2 j hj
  | outside i t stage cache ht =>
      exact SemaphoresKnown.goto (s := { s with cache := cache }) hs ht stage
  | permit i t j ht =>
      intro u hu k hk
      rw [List.length_modify]
      exact hs.goto ht .permitted u hu k hk
  | back i t ht => exact (hs.goto ht _).giveBack
  | begin i t ht => exact hs.goto ht .fetching
  | inside i t stage ht => exact hs.goto ht stage
  | finish i t stage e ht => exact (hs.goto ht _).giveBack
  | place i t held type size now ht =>
      have hgoto := hs.goto ht (.placed held type)
      unfold Flights.place
      split <;> exact hgoto
  | exit i t stage ht => exact (hs.goto ht _).giveBack
  | unlink paths => exact hs

open Flights in
/-- **No step loses a permit or makes one.** -/
theorem FlightEffect.permitsAddUp {s s' : Flights} (h : FlightEffect s s') (hs : s.PermitsAddUp)
    (hknown : s.SemaphoresKnown) : s'.PermitsAddUp := by
  cases h with
  | arrive new semaphores hsemaphores hnew =>
      exact hs.arrive hknown hsemaphores fun t ht => (hnew t ht).1
  | outside i t stage cache ht _ hfrom hto =>
      have hsame : stage.permits = t.stage.permits := by
        rw [FlightStage.permits_of_outside hto, FlightStage.permits_of_outside hfrom]
      exact hs.goto ht stage hsame
  | permit i t j ht hfrom hsemaphore hfree =>
      exact hs.permit ht (FlightStage.permits_of_outside hfrom) hsemaphore hfree
  | back i t ht hfrom => exact hs.giveBack ht (by rw [hfrom]; rfl) rfl
  | begin i t ht hat =>
      -- A task of `get` has no permit, and one of `warm` keeps its own.
      intro j free hj
      have hcount := countP_set_eq (p := (·.holdsPermit j)) { t with stage := .fetching } ht
        (by
          obtain ⟨key, semaphore, stage⟩ := t
          cases semaphore <;> cases stage <;>
            simp_all [Flight.atLock, Flight.holdsPermit, FlightStage.permits, FlightStage.locks])
      simp only [Flights.begin, Flights.goto, hcount]
      exact hs j free hj
  | inside i t stage ht hfrom hto =>
      exact hs.goto ht stage
        (by rw [FlightStage.permits_of_locks hfrom, FlightStage.permits_of_locks hto])
  | finish i t stage e ht hfrom hto =>
      have hpermits := FlightStage.permits_of_locks (FlightStage.locks_of_flies hfrom)
      exact hs.giveBack ht hpermits (FlightStage.permits_of_outside hto)
  | place i t held type size now ht hfrom =>
      have hgoto := hs.goto ht (.placed held type) (by rw [hfrom]; rfl)
      unfold Flights.place
      split <;> exact hgoto
  | exit i t stage ht hfrom _ hto =>
      exact hs.giveBack ht (FlightStage.permits_of_locks hfrom) (FlightStage.permits_of_outside hto)
  | unlink paths => exact hs

/-! ## The record -/

/-- How many files of a key were removed. -/
def Flights.removals (s : Flights) (key : ArtKey) : ℕ := s.removed.countP key.serves

/-- How many downloads of a key ended in some way. -/
def Flights.ends (s : Flights) (key : ArtKey) (e : FlightEnd) : ℕ := s.ended.count (key, e)

/-- How many downloads of a key are under way. -/
def Flights.inFlight (s : Flights) (key : ArtKey) : ℕ := s.flights.countP (·.flies key)

/-- How many downloads of a key were started. -/
def Flights.downloads (s : Flights) (key : ArtKey) : ℕ := s.started.count key

namespace Flights

variable {s s' : Flights} {i : ℕ} {t : Flight} {stage : FlightStage} {key : ArtKey}

/-- Every download that was started is under way or has ended. -/
def LedgerAddsUp (s : Flights) : Prop :=
  ∀ key, s.downloads key = s.inFlight key + s.ends key .kept + s.ends key .unkept +
    s.ends key .failed +
    s.ends key .cancelled

/-- The files there were at first, and those that were stored since, are there or
were removed.  If there is a file while a download is under way, the file that
it may bring counts already. -/
def FilesAddUp (s : Flights) (initial : ArtCache) : Prop :=
  ∀ key, (s.cache.has key = true →
      (initial.has key).toNat + s.ends key .kept + s.inFlight key ≤ s.removals key + 1) ∧
    (s.cache.has key = false → (initial.has key).toNat + s.ends key .kept ≤ s.removals key)

/-- **Single flight.** -/
theorem LocksAddUp.inFlight_le_one (h : s.LocksAddUp) (key : ArtKey) : s.inFlight key ≤ 1 := by
  have hinside : s.inFlight key ≤ s.flights.countP (·.holdsLock key.sha.digits) := by
    apply List.countP_mono_left
    intro t _ hflies
    simp only [Flight.flies, Flight.holdsLock, Bool.and_eq_true, decide_eq_true_eq] at hflies ⊢
    exact ⟨by rw [hflies.1], FlightStage.locks_of_flies hflies.2⟩
  have hlock := h key.sha.digits
  have hone := Bool.toNat_le (s.locked key.sha.digits)
  omega

/-- A task that moves on is counted at its new stage instead of the old. -/
theorem inFlight_goto (ht : s.flights[i]? = some t) (stage : FlightStage) (key : ArtKey) :
    (s.goto i t stage).inFlight key + (t.flies key).toNat =
      s.inFlight key + (Flight.flies key { t with stage := stage }).toNat :=
  countP_set_add _ ht

/-- A move that begins no download and ends none leaves those under way. -/
theorem inFlight_goto_eq (ht : s.flights[i]? = some t) (stage : FlightStage)
    (hsame : stage.flies = t.stage.flies) (key : ArtKey) :
    (s.goto i t stage).inFlight key = s.inFlight key :=
  countP_set_eq _ ht (by simp only [Flight.flies, hsame])

/-- The downloads under way are read off the tasks. -/
theorem inFlight_congr (hflights : s'.flights = s.flights) (key : ArtKey) :
    s'.inFlight key = s.inFlight key := by
  rw [inFlight, hflights, inFlight]

/-- One more end in the books, for its own artwork and kind. -/
theorem ends_record (key : ArtKey) (e e' : FlightEnd) :
    (s.record t e).ends key e' = s.ends key e' + (decide (t.key = key ∧ e = e')).toNat := by
  unfold ends record
  rw [List.count_cons]
  by_cases h : t.key = key ∧ e = e'
  · simp [h]
  · have hne : ¬ (t.key, e) = (key, e') := fun heq => h (Prod.mk.injEq .. ▸ heq)
    simp [h, hne]

/-- The same entries for a key: downloads, their ends, and removals. -/
structure SameBooks (s s' : Flights) (key : ArtKey) : Prop where
  downloads : s'.downloads key = s.downloads key
  ends : ∀ e, s'.ends key e = s.ends key e
  removals : s'.removals key = s.removals key

/-- A step that writes no book leaves every book. -/
theorem sameBooks_of_eq (hstarted : s'.started = s.started) (hended : s'.ended = s.ended)
    (hremoved : s'.removed = s.removed) (key : ArtKey) : SameBooks s s' key := by
  refine ⟨?_, fun e => ?_, ?_⟩
  · rw [downloads, hstarted, downloads]
  · rw [ends, hended, ends]
  · rw [removals, hremoved, removals]

/-- Moving on and giving a permit back writes no book. -/
theorem sameBooks_giveBack (stage : FlightStage) (key : ArtKey) :
    SameBooks s ((s.goto i t stage).giveBack t) key := by
  apply sameBooks_of_eq
  · exact giveBack_started
  · exact giveBack_ended
  · exact giveBack_removed

/-- Leaving the lock writes no book. -/
theorem sameBooks_exit (stage : FlightStage) (key : ArtKey) : SameBooks s (s.exit i t stage) key :=
  have hback : SameBooks s ((s.goto i t stage).giveBack t) key := sameBooks_giveBack stage key
  ⟨hback.downloads, hback.ends, hback.removals⟩

/-- Leaving the lock counts as moving on does. -/
theorem inFlight_exit (key : ArtKey) :
    (s.exit i t stage).inFlight key = (s.goto i t stage).inFlight key := by
  rw [inFlight, exit, giveBack_flights, inFlight]

/-- Leaving the lock leaves the files. -/
theorem has_exit (key : ArtKey) : (s.exit i t stage).cache.has key = s.cache.has key := by
  rw [Flights.exit]
  exact congrArg (fun c : ArtCache => c.has key) giveBack_cache

/-- A file that is gone was removed. -/
theorem removals_unlink {paths : List ArtPath} (hbefore : s.cache.has key = true)
    (hafter : (s.unlink paths).cache.has key = false) :
    s.removals key + 1 ≤ (s.unlink paths).removals key := by
  obtain ⟨f, hf, hserves⟩ := List.any_eq_true.mp hbefore
  have hgone : f.path ∈ paths := by
    by_contra hkept
    exact List.any_eq_false.mp hafter f (ArtCache.mem_unlink.mpr ⟨hf, hkept⟩) hserves
  have hlisted : f ∈ s.cache.files.filter fun f => paths.contains f.path :=
    List.mem_filter.mpr ⟨hf, List.contains_iff_mem.mpr hgone⟩
  have hone : 1 ≤
      ((s.cache.files.filter fun f => paths.contains f.path).map ArtFile.path).countP key.serves :=
    List.countP_pos_iff.mpr ⟨f.path, List.mem_map_of_mem hlisted, hserves⟩
  simp only [removals, unlink, List.countP_append]
  omega

/-- Removals are only added. -/
theorem removals_le_unlink (paths : List ArtPath) :
    s.removals key ≤ (s.unlink paths).removals key := by
  simp only [removals, unlink, List.countP_append]
  omega

/-- What is there after a removal was there before. -/
theorem has_of_has_unlink {paths : List ArtPath} (h : (s.unlink paths).cache.has key = true) :
    s.cache.has key = true := by
  obtain ⟨f, hf, hserves⟩ := List.any_eq_true.mp h
  exact List.any_eq_true.mpr ⟨f, (ArtCache.mem_unlink.mp hf).1, hserves⟩

/-- A file that is put in its place covers no other. -/
theorem has_replace {c : ArtCache} (f : ArtFile) (h : c.has key = true) :
    (c.replace f).has key = true := by
  obtain ⟨g, hg, hserves⟩ := List.any_eq_true.mp h
  by_cases hsame : g.path = f.path
  · exact List.any_eq_true.mpr ⟨f, ArtCache.mem_replace.mpr (Or.inr rfl), hsame ▸ hserves⟩
  · exact List.any_eq_true.mpr ⟨g, ArtCache.mem_replace.mpr (Or.inl ⟨hg, hsame⟩), hserves⟩

/-- A file that is put in place is there. -/
theorem has_replace_own {c : ArtCache} (type : ImageType) (size now : ℕ) :
    (c.replace ⟨key.path type, size, now⟩).has key = true :=
  List.any_eq_true.mpr ⟨_, ArtCache.mem_replace.mpr (Or.inr rfl), key.serves_path type⟩

end Flights

/-- The entries that a step makes in the books of a key. -/
inductive FlightAccount (s s' : Flights) (key : ArtKey) : Prop
  | none (hbooks : Flights.SameBooks s s' key) (hflight : s'.inFlight key = s.inFlight key)
      (hhas : s.cache.has key = true → s'.cache.has key = true)
  | start (hdownloads : s'.downloads key = s.downloads key + 1)
    (hends : ∀ e, s'.ends key e = s.ends key e)
      (hremovals : s'.removals key = s.removals key)
        (hflight : s'.inFlight key = s.inFlight key + 1)
      (hmiss : s.cache.has key = false) (hstill : s'.cache.has key = false)
  | finish (e : FlightEnd) (hdownloads : s'.downloads key = s.downloads key)
      (hends : ∀ e', s'.ends key e' = s.ends key e' + (decide (e = e')).toNat)
      (hremovals : s'.removals key = s.removals key)
        (hflight : s'.inFlight key + 1 = s.inFlight key)
      (hhas : s.cache.has key = true → s'.cache.has key = true)
      (hkept : e = .kept → s'.cache.has key = true)
  | remove (hdownloads : s'.downloads key = s.downloads key)
    (hends : ∀ e, s'.ends key e = s.ends key e)
      (hflight : s'.inFlight key = s.inFlight key) (hgrow : s.removals key ≤ s'.removals key)
      (hhas : s'.cache.has key = true → s.cache.has key = true)
      (hgone : s.cache.has key = true → s'.cache.has key = false →
        s.removals key + 1 ≤ s'.removals key)

namespace Flights

variable {s s' : Flights} {i : ℕ} {t : Flight} {stage : FlightStage} {key : ArtKey}

/-- A move that begins no download and ends none leaves every account. -/
theorem account_goto (ht : s.flights[i]? = some t) (hsame : stage.flies = t.stage.flies)
    (key : ArtKey) :
    FlightAccount s (s.goto i t stage) key :=
  .none ⟨rfl, fun _ => rfl, rfl⟩ (inFlight_goto_eq ht stage hsame key) id

/-- A download that begins is entered once, as under way. -/
theorem account_begin (ht : s.flights[i]? = some t) (hfrom : t.stage.locks = false)
    (hmiss : s.cache.has t.key = false) (key : ArtKey) : FlightAccount s (s.begin i t) key := by
  have hfirst : t.flies key = false := by
    have hnot : t.stage.flies = false := by
      by_contra hflies
      rw [FlightStage.locks_of_flies (Bool.of_not_eq_false hflies)] at hfrom
      cases hfrom
    simp [Flight.flies, hnot]
  have hflight := inFlight_goto ht .fetching key
  rw [hfirst, Bool.toNat_false, Nat.add_zero] at hflight
  by_cases hown : t.key = key
  · have hlast : Flight.flies key { t with stage := .fetching } = true := by
      simp [Flight.flies, hown, FlightStage.flies]
    rw [hlast] at hflight
    refine .start ?_ (fun _ => rfl) rfl hflight (hown ▸ hmiss) (hown ▸ hmiss)
    rw [downloads, begin, hown, List.count_cons_self, downloads]
  · have hlast : Flight.flies key { t with stage := .fetching } = false := by
      simp [Flight.flies, hown]
    rw [hlast] at hflight
    refine .none ⟨?_, fun _ => rfl, rfl⟩ hflight id
    rw [downloads, begin, List.count_cons_of_ne hown, downloads]

/-- The entries of a download that ends, whatever becomes of the files. -/
theorem account_record {e : FlightEnd} (ht : s.flights[i]? = some t) (stage : FlightStage)
    (hfrom : t.stage.flies = true) (hto : stage.flies = false) (hbooks : SameBooks s s' key)
    (hflights : s'.inFlight key = (s.goto i t stage).inFlight key)
    (hhas : s.cache.has key = true → s'.cache.has key = true)
    (hkept : e = .kept → s'.cache.has t.key = true) : FlightAccount s (s'.record t e) key := by
  have hflight := inFlight_goto ht stage key
  have hlast : Flight.flies key { t with stage := stage } = false := by simp [Flight.flies, hto]
  rw [hlast, Bool.toNat_false, Nat.add_zero, ← hflights] at hflight
  have hends (e' : FlightEnd) := ends_record (s := s') (t := t) key e e'
  by_cases hown : t.key = key
  · have hfirst : t.flies key = true := by simp [Flight.flies, hown, hfrom]
    rw [hfirst] at hflight
    refine .finish e hbooks.downloads (fun e' => ?_) hbooks.removals hflight hhas (hown ▸ hkept)
    rw [hends, hbooks.ends]
    simp [hown]
  · have hfirst : t.flies key = false := by simp [Flight.flies, hown]
    rw [hfirst, Bool.toNat_false, Nat.add_zero] at hflight
    refine .none ⟨hbooks.downloads, fun e' => ?_, hbooks.removals⟩ hflight hhas
    rw [hends, hbooks.ends]
    simp [hown]

/-- A download that is put in place ends once, with its file there. -/
theorem account_place {held : Bool} {type : ImageType} {size now : ℕ} (ht : s.flights[i]? = some t)
    (hfrom : t.stage = .storing held type size) (key : ArtKey) :
    FlightAccount s (s.place i t held type size now) key := by
  have hhas : s.cache.has key = true →
      (s.cache.replace ⟨t.key.path type, size, now⟩).has key = true := has_replace _
  unfold place
  cases held with
  | true =>
      exact account_record ht (.placed true type) (by rw [hfrom]; rfl) rfl
        ⟨rfl, fun _ => rfl, rfl⟩ rfl hhas fun _ => has_replace_own type size now
  | false =>
      refine .none ⟨rfl, fun _ => rfl, rfl⟩ ?_ hhas
      exact inFlight_goto_eq ht (.placed false type) (by rw [hfrom]; rfl) key

end Flights

open Flights in
/-- **Every step keeps the account of every artwork.** -/
theorem FlightEffect.account {s s' : Flights} (h : FlightEffect s s') (key : ArtKey) :
    FlightAccount s s' key := by
  cases h with
  | arrive new semaphores _ hnew =>
      refine .none ⟨rfl, fun _ => rfl, rfl⟩ ?_ id
      have hnone : new.countP (·.flies key) = 0 := by
        rw [List.countP_eq_zero]
        intro t ht
        simp [Flight.flies, (hnew t ht).1, FlightStage.flies]
      simp only [inFlight, List.countP_append, hnone, Nat.add_zero]
  | outside i t stage cache ht hpaths hfrom hto =>
      refine .none ⟨rfl, fun _ => rfl, rfl⟩ ?_ fun hhas =>
        (ArtCache.has_congr hpaths key).trans hhas
      exact inFlight_goto_eq ht stage
        (by rw [FlightStage.flies_of_outside hto, FlightStage.flies_of_outside hfrom]) key
  | permit i t j ht hfrom =>
      refine .none ⟨rfl, fun _ => rfl, rfl⟩ ?_ id
      exact inFlight_goto_eq ht .permitted (FlightStage.flies_of_outside hfrom).symm key
  | back i t ht hfrom =>
      refine .none (sameBooks_giveBack .done key) ?_ fun hhas => by rw [giveBack_cache]; exact hhas
      rw [inFlight_congr giveBack_flights]
      exact inFlight_goto_eq ht .done (by rw [hfrom]; rfl) key
  | begin i t ht hat _ hmiss => exact account_begin ht (locks_of_atLock hat) hmiss key
  | inside i t stage ht _ _ hflies => exact account_goto ht hflies key
  | finish i t stage e ht hfrom hto hend =>
      exact account_record ht stage hfrom (FlightStage.flies_of_outside hto)
        (sameBooks_exit stage key)
        (inFlight_exit key) (fun hhas => (has_exit key).trans hhas) fun hkept => absurd hkept hend
  | place i t held type size now ht hfrom => exact account_place ht hfrom key
  | exit i t stage ht hfrom hlanded hto =>
      refine .none (sameBooks_exit stage key) ?_ fun hhas => (has_exit key).trans hhas
      rw [inFlight_exit]
      exact inFlight_goto_eq ht stage (by rw [FlightStage.flies_of_outside hto, hlanded]) key
  | unlink paths =>
      exact .remove rfl (fun _ => rfl) rfl
        (removals_le_unlink paths) has_of_has_unlink removals_unlink

/-! ## The books are balanced -/

/-- Where every account is kept, the downloads begun are those ended and those
under way. -/
theorem FlightAccount.ledgerAddsUp {s s' : Flights} (h : ∀ key, FlightAccount s s' key)
    (hs : s.LedgerAddsUp) : s'.LedgerAddsUp := by
  intro key
  have hbefore := hs key
  cases h key with
  | none hbooks hflight =>
      rw [hbooks.downloads, hbooks.ends, hbooks.ends, hbooks.ends, hbooks.ends, hflight]
      exact hbefore
  | start hdownloads hends _ hflight =>
      rw [hdownloads, hends, hends, hends, hends, hflight]
      omega
  | finish e hdownloads hends _ hflight =>
      rw [hdownloads, hends, hends, hends, hends]
      cases e <;> simp <;> omega
  | remove hdownloads hends hflight =>
      rw [hdownloads, hends, hends, hends, hends, hflight]
      exact hbefore

/-- Where every account is kept, the files there were and those stored since are
there or were removed. -/
theorem FlightAccount.filesAddUp {s s' : Flights} {initial : ArtCache}
    (h : ∀ key, FlightAccount s s' key) (hlocks : s.LocksAddUp) (hs : s.FilesAddUp initial) :
    s'.FilesAddUp initial := by
  intro key
  obtain ⟨hthere, hmissing⟩ := hs key
  have hone := hlocks.inFlight_le_one key
  cases h key with
  | none hbooks hflight hhas =>
      rw [hbooks.ends, hbooks.removals, hflight]
      cases hbefore : s.cache.has key with
      | true =>
          have hthere' := hthere hbefore
          exact ⟨fun _ => hthere', fun hnot => by rw [hhas hbefore] at hnot; cases hnot⟩
      | false =>
          -- Another thread may have put a file there: a download under way is the one too many.
          have hmissing' := hmissing hbefore
          exact ⟨fun _ => by omega, fun _ => hmissing'⟩
  | start _ hends hremovals _ hmiss hstill =>
      rw [hends, hremovals]
      exact ⟨fun hhas => absurd hhas (by rw [hstill]; exact nofun), fun _ => hmissing hmiss⟩
  | finish e _ hends hremovals hflight hhas hkept =>
      rw [hends, hremovals]
      cases hbefore : s.cache.has key with
      | true =>
          have hthere' := hthere hbefore
          refine ⟨fun _ => ?_, fun hnot => by rw [hhas hbefore] at hnot; cases hnot⟩
          have hentry := Bool.toNat_le (decide (e = FlightEnd.kept))
          omega
      | false =>
          have hmissing' := hmissing hbefore
          have hentry := Bool.toNat_le (decide (e = FlightEnd.kept))
          refine ⟨fun _ => by omega, fun hnot => ?_⟩
          have hother : ¬ e = FlightEnd.kept := fun heq => by rw [hkept heq] at hnot; cases hnot
          rw [decide_eq_false hother, Bool.toNat_false]
          exact hmissing'
  | remove _ hends hflight hgrow hhas hgone =>
      rw [hends, hflight]
      refine ⟨fun hafter => (hthere (hhas hafter)).trans (by omega), fun hafter => ?_⟩
      cases hbefore : s.cache.has key with
      | true =>
          have hthere' := hthere hbefore
          have hgone' := hgone hbefore hafter
          omega
      | false => exact (hmissing hbefore).trans hgrow

/-! ## Every state -/

/-- What holds in every state. -/
structure Flights.Sound (s : Flights) (initial : ArtCache) : Prop where
  locks : s.LocksAddUp
  known : s.SemaphoresKnown
  permits : s.PermitsAddUp
  ledger : s.LedgerAddsUp
  files : s.FilesAddUp initial

namespace Flights

variable {s s' : Flights} {cache : ArtCache}

/-- Before the first request all is in order. -/
theorem sound_start (cache : ArtCache) : Sound { cache := cache } cache where
  locks _ := rfl
  known _ ht := nomatch ht
  permits _ _ hj := nomatch hj
  ledger _ := rfl
  files key := by
    constructor
    · intro _
      exact Nat.add_le_add_right (Bool.toNat_le _) 0
    · intro hnot
      have hnone : ({ cache := cache } : Flights).cache.has key = cache.has key := rfl
      rw [← hnone, hnot]
      exact Nat.le_refl 0

/-- **One step keeps everything in order.** -/
theorem Sound.step {a : FlightAction} (h : s.Sound cache) (hstep : flightStep s a = some s') :
    s'.Sound cache := by
  have heffect := flightEffect_of_step hstep
  exact {
    locks := heffect.locksAddUp h.locks
    known := heffect.semaphoresKnown h.known
    permits := heffect.permitsAddUp h.permits h.known
    ledger := FlightAccount.ledgerAddsUp heffect.account h.ledger
    files := FlightAccount.filesAddUp heffect.account h.locks h.files }

/-- So it is in every state reached. -/
theorem sound_of_reachable (h : Reachable flightStep { cache := cache } s) : s.Sound cache := by
  induction h with
  | refl => exact sound_start cache
  | tail _ _ hnext ih => exact ih.step hnext

/-- At most `prefetchConcurrency` tasks hold permits of one semaphore. -/
theorem Sound.holdsPermit_le (h : s.Sound cache) (j : ℕ) :
    s.flights.countP (·.holdsPermit j) ≤ prefetchConcurrency := by
  cases hj : s.semaphores[j]? with
  | some free =>
      have hsum := h.permits j free hj
      omega
  | none =>
      have hnobody : s.flights.countP (·.holdsPermit j) = 0 := by
        rw [List.countP_eq_zero]
        intro t ht hholds
        simp only [Flight.holdsPermit, Bool.and_eq_true, decide_eq_true_eq] at hholds
        have hknown := h.known t ht j hholds.1
        rw [List.getElem?_eq_none_iff] at hj
        omega
      rw [hnobody]
      exact Nat.zero_le _

/-- Tasks that are all outside hold nothing. -/
theorem Sound.free_of_outside (h : s.Sound cache) (hout : ∀ t ∈ s.flights, t.stage.outside = true) :
    (∀ digits, s.locked digits = false) ∧ ∀ free ∈ s.semaphores, free = prefetchConcurrency := by
  constructor
  · intro digits
    have hnobody : s.flights.countP (·.holdsLock digits) = 0 := by
      rw [List.countP_eq_zero]
      intro t ht
      simp [Flight.holdsLock, FlightStage.locks_of_outside (hout t ht)]
    have hlock := h.locks digits
    rw [hnobody] at hlock
    cases hlocked : s.locked digits with
    | false => rfl
    | true => simp [hlocked] at hlock
  · intro free hfree
    obtain ⟨j, hj⟩ := List.mem_iff_getElem?.mp hfree
    have hnobody : s.flights.countP (·.holdsPermit j) = 0 := by
      rw [List.countP_eq_zero]
      intro t ht
      simp [Flight.holdsPermit, FlightStage.permits_of_outside (hout t ht)]
    have hsum := h.permits j free hj
    omega

end Flights

open Flights in
/-- **At any moment** one task at most is inside the lock of a key, a prefetch has
four tasks at most past its semaphore, and when no task is inside, however they
have left, no lock is taken and every permit is back. -/
theorem flights_exclusive {s : Flights} {cache : ArtCache}
    (h : Reachable flightStep { cache := cache } s) :
    (∀ digits, s.flights.countP (·.holdsLock digits) ≤ 1) ∧
      (∀ j, s.flights.countP (·.holdsPermit j) ≤ prefetchConcurrency) ∧
        ((∀ t ∈ s.flights, t.stage.outside = true) →
          (∀ digits, s.locked digits = false) ∧
            ∀ free ∈ s.semaphores, free = prefetchConcurrency) := by
  have hsound := Flights.sound_of_reachable h
  refine ⟨fun digits => ?_, hsound.holdsPermit_le, hsound.free_of_outside⟩
  rw [hsound.locks digits]
  exact Bool.toNat_le _

/-- A prefetch and a visitor want one poster; the visitor leaves while its
download runs, and the task of the prefetch goes on. -/
def posterWantedTwice : List FlightAction :=
  [.get ArtState.posterKey, .prefetch [ArtState.posterKey], .move 0 (.look 0), .move 1 (.look 0),
    .move 0 (.acquire 1),
    .move 1 .permit, .move 0 .cancel, .move 1 (.acquire 2), .move 1 (.fetched .jpeg 3 true),
    .move 1 (.place 4), .move 1 .storeDone, .move 1 .leave]

/-- A poster wanted twice at once, from its lock to its file. -/
theorem flights_exclusive_posterWantedTwice :
    ∃ s, replay flightStep posterWantedTwice { cache := ⟨[], List.nodup_nil⟩ } = some s ∧
      (∀ t ∈ s.flights, t.stage = .done) ∧ (∀ free ∈ s.semaphores, free = prefetchConcurrency) := by
  obtain ⟨s, hrun, hdone⟩ : ∃ s,
      replay flightStep posterWantedTwice { cache := ⟨[], List.nodup_nil⟩ } = some s ∧
      s.flights.map Flight.stage = [.done, .done] := ⟨_, rfl, rfl⟩
  have hstages (t : Flight) (ht : t ∈ s.flights) : t.stage = .done := by
    have hmem := List.mem_map_of_mem (f := Flight.stage) ht
    simpa [hdone] using hmem
  obtain ⟨-, -, hfree⟩ := flights_exclusive (reachable_of_replay hrun)
  exact ⟨s, hrun, hstages, (hfree fun t ht => by rw [hstages t ht]; rfl).2⟩

open Flights in
/-- **How often an image is downloaded**, by any number of tasks: once if it was
not there, once more for each time that its file was removed, and for each
download that brought no file. -/
theorem downloads_le {s : Flights} {cache : ArtCache}
    (h : Reachable flightStep { cache := cache } s)
    (key : ArtKey) :
    s.downloads key + (cache.has key).toNat ≤
      1 + s.removals key + s.ends key .unkept + s.ends key .failed + s.ends key .cancelled := by
  have hsound := Flights.sound_of_reachable h
  have hledger := hsound.ledger key
  have hone := hsound.locks.inFlight_le_one key
  obtain ⟨hthere, hmissing⟩ := hsound.files key
  cases hhas : s.cache.has key with
  | true =>
      have hkept := hthere hhas
      omega
  | false =>
      have hkept := hmissing hhas
      omega

/-- The same run: one download, and one file. -/
theorem downloads_le_posterWantedTwice :
    ∃ s, replay flightStep posterWantedTwice { cache := ⟨[], List.nodup_nil⟩ } = some s ∧
      s.downloads ArtState.posterKey = 2 ∧ s.ends ArtState.posterKey .cancelled = 1 ∧
        s.downloads ArtState.posterKey +
          (ArtCache.has ⟨[], List.nodup_nil⟩ ArtState.posterKey).toNat ≤
          1 + s.removals ArtState.posterKey + s.ends ArtState.posterKey .unkept +
            s.ends ArtState.posterKey .failed +
            s.ends ArtState.posterKey .cancelled := by
  obtain ⟨s, hrun, hdownloads, hcancelled⟩ :
      ∃ s, replay flightStep posterWantedTwice { cache := ⟨[], List.nodup_nil⟩ } = some s ∧
        s.downloads ArtState.posterKey = 2 ∧ s.ends ArtState.posterKey .cancelled = 1 :=
          ⟨_, rfl, by decide, by decide⟩
  exact ⟨s, hrun, hdownloads, hcancelled,
    downloads_le (reachable_of_replay hrun) ArtState.posterKey⟩

end Nebularr
