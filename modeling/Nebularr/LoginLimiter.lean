import Mathlib.Data.List.Induction
import Nebularr.GroupFold
import Nebularr.Transitions

/-!
# The login rate limiter

`LoginRateLimiter` with the login route in front of it.  A login asks whether
its client is locked out before it checks the password, in another thread; what
comes of it is registered when the check is done, and other logins may have
been asked and registered meanwhile.

Registering a failure bounds the map by evicting the keys that failed longest
ago, and does not ask whether they are locked out.
-/

namespace Nebularr

variable {κ : Type} [DecidableEq κ]

/-! ## The map of failures -/

/-- How often a client has failed, and when it did last; times are ticks of the
clock. -/
structure FailureRecord where
  count : ℕ
  lastFailure : ℕ
deriving DecidableEq, Repr

/-- `_failures`, in the order of insertion. -/
structure FailureMap (κ : Type) where
  entries : List (κ × FailureRecord)
  nodup : (entries.map Prod.fst).Nodup

namespace FailureMap

def keys (m : FailureMap κ) : List κ := m.entries.map Prod.fst

/-- `len(self._failures)`. -/
def size (m : FailureMap κ) : ℕ := m.entries.length

/-- `self._failures.get(key, (0, 0.0))`. -/
def get (m : FailureMap κ) (key : κ) : FailureRecord := (m.entries.lookup key).getD ⟨0, 0⟩

/-- `self._failures[key] = record`. -/
def set (m : FailureMap κ) (key : κ) (record : FailureRecord) : FailureMap κ :=
  ⟨updateKey key record (fun _ => record) m.entries, nodup_keys_updateKey m.nodup⟩

/-- `del self._failures[key]` for each of the keys. -/
def drop (m : FailureMap κ) (keys : List κ) : FailureMap κ :=
  ⟨m.entries.filter fun entry => !keys.contains entry.1,
    m.nodup.sublist (List.filter_sublist.map Prod.fst)⟩

/-- The first `n` keys of `sorted(self._failures, key=lambda k: self._failures[k][1])`. -/
def oldest (m : FailureMap κ) (n : ℕ) : List κ :=
  ((m.entries.mergeSort fun a b => decide (a.2.lastFailure ≤ b.2.lastFailure)).take n).map Prod.fst

variable {m : FailureMap κ} {key k : κ} {record : FailureRecord}

/-- A key that is set is held, and every other as before. -/
theorem mem_keys_set : k ∈ (m.set key record).keys ↔ k = key ∨ k ∈ m.keys := mem_keys_updateKey

/-- Setting a key leaves the others. -/
theorem get_set_of_ne (h : k ≠ key) : (m.set key record).get k = m.get k := by
  simp only [get, set, lookup_updateKey, if_neg h]

/-- A key that is set has its record. -/
@[simp] theorem get_set_self : (m.set key record).get key = record := by
  simp [get, set, lookup_updateKey]

/-- Dropping takes the listed keys. -/
theorem mem_keys_drop {keys : List κ} : k ∈ (m.drop keys).keys ↔ k ∈ m.keys ∧ k ∉ keys := by
  simp only [FailureMap.keys, drop, List.mem_map, List.mem_filter, Bool.not_eq_true',
    List.contains_eq_mem, decide_eq_false_iff_not]
  constructor
  · rintro ⟨entry, ⟨hentry, hnot⟩, rfl⟩
    exact ⟨⟨entry, hentry, rfl⟩, hnot⟩
  · rintro ⟨⟨entry, hentry, rfl⟩, hnot⟩
    exact ⟨entry, ⟨hentry, hnot⟩, rfl⟩

/-- A lookup sees nothing of what is dropped beside it. -/
theorem lookup_filter_keys {entries : List (κ × FailureRecord)} {keys : List κ} (h : k ∉ keys) :
    (entries.filter fun entry => !keys.contains entry.1).lookup k = entries.lookup k := by
  induction entries with
  | nil => rfl
  | cons entry rest ih =>
      obtain ⟨first, record⟩ := entry
      by_cases hmem : first ∈ keys
      · have hne : k ≠ first := fun heq => h (heq ▸ hmem)
        rw [List.filter_cons_of_neg (by simp [hmem]), ih, lookup_cons_of_ne hne]
      · rw [List.filter_cons_of_pos (by simp [hmem]), List.lookup_cons, List.lookup_cons, ih]

/-- Dropping leaves the other keys their records. -/
theorem get_drop {keys : List κ} (h : k ∉ keys) : (m.drop keys).get k = m.get k := by
  unfold get
  rw [drop, lookup_filter_keys h]

/-- A key that is not held has no failure. -/
theorem get_of_notMem (h : k ∉ m.keys) : m.get k = ⟨0, 0⟩ := by
  have hnone : m.entries.lookup k = none := by
    rw [List.lookup_eq_none_iff]
    intro entry hentry
    rw [bne_iff_ne]
    exact fun heq => h (heq ▸ List.mem_map_of_mem hentry)
  rw [get, hnone, Option.getD_none]

/-- A dropped key reads as one that never failed. -/
theorem lastFailure_drop_le (keys : List κ) {now : ℕ} (h : (m.get k).lastFailure ≤ now) :
    ((m.drop keys).get k).lastFailure ≤ now := by
  by_cases hmem : k ∈ keys
  · rw [get_of_notMem fun hin => (mem_keys_drop.mp hin).2 hmem]
    exact Nat.zero_le now
  · rw [get_drop hmem]
    exact h

omit [DecidableEq κ] in
/-- The oldest keys are held. -/
theorem mem_keys_of_mem_oldest {n : ℕ} (h : k ∈ m.oldest n) : k ∈ m.keys := by
  obtain ⟨entry, hentry, rfl⟩ := List.mem_map.mp h
  exact List.mem_map_of_mem (List.mem_mergeSort.mp (List.mem_of_mem_take hentry))

/-- Dropping nothing changes nothing. -/
theorem drop_nil : m.drop [] = m := by
  obtain ⟨entries, hnodup⟩ := m
  simp [drop]

/-- A new key comes last. -/
theorem entries_set_of_notMem (h : key ∉ m.keys) :
    (m.set key record).entries = m.entries ++ [(key, record)] := updateKey_of_notMem h

/-- Setting a key adds at most one. -/
theorem size_set_le : (m.set key record).size ≤ m.size + 1 := length_updateKey_le

/-- Setting a key that is held adds none. -/
theorem size_set_of_mem (h : key ∈ m.keys) : (m.set key record).size = m.size :=
  length_updateKey_of_mem h

/-- Evicting takes at least one key off. -/
theorem size_drop_oldest_lt {n : ℕ} (hn : 0 < n) (hm : 0 < m.size) :
    (m.drop (m.oldest n)).size < m.size := by
  have hsorted : 0 < (m.entries.mergeSort fun a b =>
      decide (a.2.lastFailure ≤ b.2.lastFailure)).length := by
    rw [List.length_mergeSort]
    exact hm
  have hfirst : m.oldest n ≠ [] := by
    unfold oldest
    rw [Ne, List.map_eq_nil_iff, List.take_eq_nil_iff, ← List.length_eq_zero_iff]
    omega
  obtain ⟨k, hk⟩ := List.exists_mem_of_ne_nil _ hfirst
  obtain ⟨entry, hentry, hkey⟩ := List.mem_map.mp (mem_keys_of_mem_oldest hk)
  refine List.length_filter_lt_length_iff_exists.mpr ⟨entry, hentry, ?_⟩
  simp [hkey, hk]

end FailureMap

/-! ## The limiter -/

/-- `LoginRateLimiter`, with the defaults of its constructor. -/
structure LoginRateLimiter where
  maxFailures : ℕ := 5
  lockoutSeconds : ℕ := 30

/-- How many keys the map may hold before a failure evicts some. -/
def failureMapBound : ℕ := 10000

namespace LoginRateLimiter

variable (limiter : LoginRateLimiter)

/-- `is_locked`. -/
def isLocked (now : ℕ) (m : FailureMap κ) (key : κ) : Bool :=
  decide (limiter.maxFailures ≤ (m.get key).count) &&
    decide (now < (m.get key).lastFailure + limiter.lockoutSeconds)

/-- The keys that registering a failure evicts: the oldest fifth of a map that
is too large. -/
def evicted (m : FailureMap κ) : List κ :=
  if failureMapBound < m.size then m.oldest (max 1 (m.size / 5)) else []

/-- `register_failure`. -/
def registerFailure (now : ℕ) (m : FailureMap κ) (key : κ) : FailureMap κ :=
  let record := m.get key
  let count :=
    if limiter.maxFailures ≤ record.count ∧ record.lastFailure + limiter.lockoutSeconds ≤ now then 0
    else record.count
  (m.drop (evicted m)).set key ⟨count + 1, now⟩

/-- `reset`. -/
def reset (m : FailureMap κ) (key : κ) : FailureMap κ := m.drop [key]

variable {limiter} {now : ℕ} {m : FailureMap κ} {key k : κ}

omit [DecidableEq κ] in
/-- What is evicted was held. -/
theorem mem_keys_of_mem_evicted (h : k ∈ evicted m) : k ∈ m.keys := by
  unfold evicted at h
  by_cases hlarge : failureMapBound < m.size
  · rw [if_pos hlarge] at h
    exact FailureMap.mem_keys_of_mem_oldest h
  · rw [if_neg hlarge] at h
    cases h

omit [DecidableEq κ] in
/-- Nothing is evicted up to the bound. -/
theorem bound_lt_of_mem_evicted (h : k ∈ evicted m) : failureMapBound < m.size := by
  by_contra hsmall
  rw [evicted, if_neg hsmall] at h
  cases h

/-- What registering a failure keeps. -/
theorem mem_keys_registerFailure :
    k ∈ (limiter.registerFailure now m key).keys ↔ k = key ∨ (k ∈ m.keys ∧ k ∉ evicted m) := by
  rw [registerFailure, FailureMap.mem_keys_set, FailureMap.mem_keys_drop]

/-- A failure leaves the record of every other key that is not evicted. -/
theorem get_registerFailure_of_ne (hne : k ≠ key) (h : k ∉ evicted m) :
    (limiter.registerFailure now m key).get k = m.get k := by
  rw [registerFailure, FailureMap.get_set_of_ne hne, FailureMap.get_drop h]

/-- **The bound.** -/
theorem size_registerFailure_le (h : m.size ≤ failureMapBound + 1) :
    (limiter.registerFailure now m key).size ≤ failureMapBound + 1 := by
  have hset : (limiter.registerFailure now m key).size ≤ (m.drop (evicted m)).size + 1 :=
    FailureMap.size_set_le
  unfold evicted at hset
  by_cases hlarge : failureMapBound < m.size
  · rw [if_pos hlarge] at hset
    have hless := m.size_drop_oldest_lt (n := max 1 (m.size / 5)) (by omega) (by omega)
    omega
  · have hdrop : (m.drop []).size ≤ m.size := List.length_filter_le _ _
    rw [if_neg hlarge] at hset
    omega

/-! ## Whose lockout an eviction ends -/

/-- Registering a failure removes no other key that is locked out while a key
that is not locked out remains in the map. -/
def SparesLockouts (limiter : LoginRateLimiter) (now : ℕ) (m : FailureMap κ) (key : κ) : Prop :=
  ∀ k, k ≠ key → limiter.isLocked now m k = true → k ∈ m.keys →
    k ∉ (limiter.registerFailure now m key).keys →
      ∀ u ∈ m.keys, u ∈ (limiter.registerFailure now m key).keys → limiter.isLocked now m u = true

/-- All keys that stay are locked out. -/
def OnlyLockoutsStay (limiter : LoginRateLimiter) (now : ℕ) (m : FailureMap κ) (key : κ) : Prop :=
  ∀ u ∈ m.keys, u ∉ evicted m ∨ u = key → limiter.isLocked now m u = true

/-- No other key of the oldest fifth is locked out, if there is an eviction. -/
def EvictsNoLockout (limiter : LoginRateLimiter) (now : ℕ) (m : FailureMap κ) (key : κ) : Prop :=
  ∀ k ∈ evicted m, k ≠ key → limiter.isLocked now m k = false

/-- **When the lockouts of others are spared.** -/
theorem sparesLockouts_iff :
    limiter.SparesLockouts now m key ↔
      limiter.EvictsNoLockout now m key ∨ limiter.OnlyLockoutsStay now m key := by
  constructor
  · intro hspares
    by_cases hnone : limiter.EvictsNoLockout now m key
    · exact Or.inl hnone
    · unfold EvictsNoLockout at hnone
      push Not at hnone
      obtain ⟨k, hk, hne, hlocked⟩ := hnone
      have hgone : k ∉ (limiter.registerFailure now m key).keys := by
        rw [mem_keys_registerFailure]
        exact fun hin => hin.elim hne fun hkept => hkept.2 hk
      refine Or.inr fun u hu hstays => ?_
      apply hspares k hne (by simpa using hlocked) (mem_keys_of_mem_evicted hk) hgone u hu
      rw [mem_keys_registerFailure]
      exact hstays.elim (fun hnot => Or.inr ⟨hu, hnot⟩) Or.inl
  · intro h k hne hlocked hmem hgone u hu hkept
    rw [mem_keys_registerFailure] at hgone hkept
    push Not at hgone
    obtain hnone | honly := h
    · rw [hnone k (hgone.2 hmem) hne] at hlocked
      cases hlocked
    · exact honly u hu (hkept.elim Or.inr fun hstays => Or.inl hstays.2)

/-- A client that is locked out still is after a failure of its own. -/
theorem get_registerFailure_self_of_isLocked (h : limiter.isLocked now m key = true) :
    (limiter.registerFailure now m key).get key = ⟨(m.get key).count + 1, now⟩ := by
  simp only [isLocked, Bool.and_eq_true, decide_eq_true_eq] at h
  rw [registerFailure, FailureMap.get_set_self, if_neg (by omega)]

/-! ## The failures of one client -/

variable (limiter) in
/-- The failures of a client, at their times. -/
def failuresOf (key : κ) (times : List ℕ) (m : FailureMap κ) : FailureMap κ :=
  times.foldl (fun m time => limiter.registerFailure time m key) m

omit [DecidableEq κ] in
/-- A map within its bound evicts nothing. -/
theorem evicted_of_size_le (h : m.size ≤ failureMapBound) : evicted m = [] := if_neg (by omega)

/-- A client that is in the map takes no place of another. -/
theorem size_registerFailure_of_mem (hbound : m.size ≤ failureMapBound) (hmem : key ∈ m.keys) :
    (limiter.registerFailure now m key).size = m.size := by
  rw [registerFailure, evicted_of_size_le hbound, FailureMap.drop_nil,
    FailureMap.size_set_of_mem hmem]

/-- A failure adds at most one key to a map within its bound. -/
theorem size_registerFailure_le_succ (hbound : m.size ≤ failureMapBound) :
    (limiter.registerFailure now m key).size ≤ m.size + 1 := by
  rw [registerFailure, evicted_of_size_le hbound, FailureMap.drop_nil]
  exact FailureMap.size_set_le

/-- Failures add up until a lockout's time has passed. -/
theorem get_failuresOf {first : ℕ} {times : List ℕ} (hactive : now < first + limiter.lockoutSeconds)
    (htimes : ∀ time ∈ times, first ≤ time ∧ time ≤ now) (hbound : m.size ≤ failureMapBound)
    (hmem : key ∈ m.keys) (hlast : first ≤ (m.get key).lastFailure) :
    ((limiter.failuresOf key times m).get key).count = (m.get key).count + times.length ∧
      first ≤ ((limiter.failuresOf key times m).get key).lastFailure := by
  induction times generalizing m with
  | nil => exact ⟨rfl, hlast⟩
  | cons time times ih =>
      obtain ⟨htime, hlater⟩ := List.forall_mem_cons.mp htimes
      have hget : (limiter.registerFailure time m key).get key = ⟨(m.get key).count + 1, time⟩ := by
        rw [registerFailure, FailureMap.get_set_self, if_neg (by omega)]
      have hsize : (limiter.registerFailure time m key).size ≤ failureMapBound := by
        rw [size_registerFailure_of_mem hbound hmem]
        exact hbound
      have hrest :=
        ih hlater hsize (mem_keys_registerFailure.mpr (Or.inl rfl)) (by rw [hget]; exact htime.1)
      rw [hget] at hrest
      rw [failuresOf, List.foldl_cons, ← failuresOf, List.length_cons]
      exact ⟨hrest.1.trans (Nat.succ_add_eq_add_succ _ _), hrest.2⟩

/-- **Failing often enough within a lockout's time locks a client out**, while
the map has room. -/
theorem isLocked_failuresOf {first : ℕ} {times : List ℕ}
    (hactive : now < first + limiter.lockoutSeconds)
    (htimes : ∀ time ∈ times, first ≤ time ∧ time ≤ now) (hroom : m.size < failureMapBound)
    (hne : times ≠ []) (henough : limiter.maxFailures ≤ times.length) :
    limiter.isLocked now (limiter.failuresOf key times m) key = true := by
  obtain ⟨time, times, rfl⟩ := List.exists_cons_of_ne_nil hne
  obtain ⟨htime, hlater⟩ := List.forall_mem_cons.mp htimes
  have hcount : 1 ≤ ((limiter.registerFailure time m key).get key).count ∧
      ((limiter.registerFailure time m key).get key).lastFailure = time := by
    rw [registerFailure, FailureMap.get_set_self]
    exact ⟨Nat.succ_le_succ (Nat.zero_le _), rfl⟩
  have hsize : (limiter.registerFailure time m key).size ≤ m.size + 1 :=
    size_registerFailure_le_succ (Nat.le_of_lt hroom)
  have hrest := get_failuresOf hactive hlater (hsize.trans hroom)
    (mem_keys_registerFailure.mpr (Or.inl rfl)) (by rw [hcount.2]; exact htime.1)
  rw [List.length_cons] at henough
  rw [failuresOf, List.foldl_cons, ← failuresOf, isLocked, Bool.and_eq_true, decide_eq_true_iff,
    decide_eq_true_iff]
  omega

end LoginRateLimiter

/-! ## The login route -/

/-- The map, the clock, and how many logins of each client are having their
password checked. -/
structure LoginWorld (κ : Type) where
  failures : FailureMap κ
  now : ℕ
  checking : κ → ℕ

inductive LoginEvent (κ : Type)
  /-- A login is asked for: refused with 429 if its client is locked out. -/
  | ask (key : κ)
  /-- A password check is done. -/
  | checked (key : κ) (authenticated : Bool)
  | wait (ticks : ℕ)

namespace LoginWorld

variable (limiter : LoginRateLimiter)

def start (now : ℕ) : LoginWorld κ := ⟨⟨[], List.nodup_nil⟩, now, fun _ => 0⟩

/-- `auth_login`, up to and from the check of the password. -/
def step (s : LoginWorld κ) : LoginEvent κ → Option (LoginWorld κ)
  | .ask key =>
      if limiter.isLocked s.now s.failures key then some s
      else some { s with checking := Function.update s.checking key (s.checking key + 1) }
  | .checked key authenticated =>
      if s.checking key = 0 then none
      else
        some { s with
          checking := Function.update s.checking key (s.checking key - 1)
          failures :=
            if authenticated then LoginRateLimiter.reset s.failures key
            else limiter.registerFailure s.now s.failures key }
  | .wait ticks => some { s with now := s.now + ticks }

/-- A step that ends no lockout of another client while some client that is
not locked out stays, and no login of a locked out client that had been asked
for before succeeds. -/
def Fair (s : LoginWorld κ) : LoginEvent κ → Prop
  | .checked key false =>
      limiter.EvictsNoLockout s.now s.failures key ∨ limiter.OnlyLockoutsStay s.now s.failures key
  | .checked key true => limiter.isLocked s.now s.failures key = false
  | _ => True

/-- The step is an eviction, and only lockouts stay. -/
def Saturated (s : LoginWorld κ) (e : LoginEvent κ) : Prop :=
  ∃ key, e = .checked key false ∧ failureMapBound < s.failures.size ∧
    limiter.OnlyLockoutsStay s.now s.failures key

variable {limiter}

/-- The map never exceeds its bound by more than one key. -/
theorem size_le_of_reachable {now : ℕ} {s : LoginWorld κ}
    (h : Reachable (step limiter) (start now) s) : s.failures.size ≤ failureMapBound + 1 := by
  induction h with
  | refl => exact Nat.zero_le _
  | @tail t u e _ _ hnext ih =>
      cases e with
      | ask key =>
          simp only [step] at hnext
          split at hnext
          · cases hnext
            exact ih
          · cases hnext
            exact ih
      | checked key authenticated =>
          simp only [step] at hnext
          split at hnext
          · cases hnext
          · cases hnext
            cases authenticated with
            | true => exact Nat.le_trans (List.length_filter_le _ _) ih
            | false => exact LoginRateLimiter.size_registerFailure_le ih
      | wait ticks =>
          cases hnext
          exact ih

/-- No failure is from the future. -/
theorem lastFailure_le_of_reachable {now : ℕ} {s : LoginWorld κ}
    (h : Reachable (step limiter) (start now) s) (key : κ) :
    (s.failures.get key).lastFailure ≤ s.now := by
  induction h with
  | refl => exact Nat.zero_le now
  | @tail t u e _ _ hnext ih =>
      cases e with
      | ask asked =>
          simp only [step] at hnext
          split at hnext
          · cases hnext
            exact ih
          · cases hnext
            exact ih
      | wait ticks =>
          cases hnext
          exact Nat.le_trans ih (Nat.le_add_right _ _)
      | checked client authenticated =>
          simp only [step] at hnext
          split at hnext
          · cases hnext
          · cases hnext
            cases authenticated with
            | true => exact FailureMap.lastFailure_drop_le _ ih
            | false =>
                by_cases hkey : key = client
                · rw [hkey]
                  simp [LoginRateLimiter.registerFailure]
                · simp only [Bool.false_eq_true, if_false, LoginRateLimiter.registerFailure,
                    FailureMap.get_set_of_ne hkey]
                  exact FailureMap.lastFailure_drop_le _ ih

/-- The lockout of a client by failures at `since` or later. -/
structure LockedSince (limiter : LoginRateLimiter) (s : LoginWorld κ) (key : κ) (since : ℕ) :
    Prop where
  count : limiter.maxFailures ≤ (s.failures.get key).count
  last : since ≤ (s.failures.get key).lastFailure
  past : since ≤ s.now

/-- A client stays locked out for as long as the lockout lasts. -/
theorem LockedSince.isLocked {s : LoginWorld κ} {key : κ} {since : ℕ}
    (hs : LockedSince limiter s key since) (hactive : s.now < since + limiter.lockoutSeconds) :
    limiter.isLocked s.now s.failures key = true := by
  have hlast := hs.last
  simp only [LoginRateLimiter.isLocked, Bool.and_eq_true, decide_eq_true_eq]
  exact ⟨hs.count, by omega⟩

/-- **A lockout in one step.** -/
theorem lockedSince_step {s s' : LoginWorld κ} {e : LoginEvent κ} {key : κ} {since : ℕ}
    (hs : LockedSince limiter s key since) (hactive : s.now < since + limiter.lockoutSeconds)
    (hfair : Fair limiter s e) (h : step limiter s e = some s') :
    LockedSince limiter s' key since ∨ Saturated limiter s e := by
  have hlocked := hs.isLocked hactive
  cases e with
  | ask asked =>
      simp only [step] at h
      split at h
      · cases h
        exact Or.inl hs
      · cases h
        exact Or.inl ⟨hs.count, hs.last, hs.past⟩
  | wait ticks =>
      cases h
      exact Or.inl ⟨hs.count, hs.last, Nat.le_trans hs.past (Nat.le_add_right _ _)⟩
  | checked client authenticated =>
      simp only [step] at h
      split at h
      · cases h
      · cases h
        -- what the map has for the client afterwards, if it is not evicted
        cases authenticated with
        | true =>
            have hne : key ≠ client := by
              intro heq
              rw [heq, show limiter.isLocked s.now s.failures client = false from hfair] at hlocked
              cases hlocked
            have hsame : (LoginRateLimiter.reset s.failures client).get key = s.failures.get key :=
              FailureMap.get_drop (by simpa using hne)
            exact Or.inl ⟨hsame ▸ hs.count, hsame ▸ hs.last, hs.past⟩
        | false =>
            by_cases hne : key = client
            · subst hne
              have hnew := LoginRateLimiter.get_registerFailure_self_of_isLocked hlocked
              have hcount := hs.count
              refine Or.inl ⟨?_, ?_, hs.past⟩
              · simp only [Bool.false_eq_true, if_false, hnew]
                omega
              · simp only [Bool.false_eq_true, if_false, hnew]
                exact hs.past
            · by_cases hevicted : key ∈ LoginRateLimiter.evicted s.failures
              · obtain hnone | honly := hfair
                · rw [hnone key hevicted hne] at hlocked
                  cases hlocked
                · have hbound := LoginRateLimiter.bound_lt_of_mem_evicted hevicted
                  exact Or.inr ⟨client, rfl, hbound, honly⟩
              · have hsame : (limiter.registerFailure s.now s.failures client).get key =
                    s.failures.get key := LoginRateLimiter.get_registerFailure_of_ne hne hevicted
                exact Or.inl ⟨hsame ▸ hs.count, hsame ▸ hs.last, hs.past⟩

/-- Time never goes back. -/
theorem now_le_of_step {s s' : LoginWorld κ} {e : LoginEvent κ} (h : step limiter s e = some s') :
    s.now ≤ s'.now := by
  cases e with
  | ask key =>
      simp only [step] at h
      split at h <;> cases h <;> exact Nat.le_refl _
  | checked key authenticated =>
      simp only [step] at h
      split at h
      · cases h
      · cases h
        exact Nat.le_refl _
  | wait ticks =>
      cases h
      exact Nat.le_add_right _ _

/-- **A lockout over a run.**  It holds until its time is over, unless on the way
the map held nothing but lockouts. -/
theorem lockedSince_of_reaches {s t : LoginWorld κ} {key : κ} {since : ℕ}
    (h : Reaches (step limiter) (Fair limiter) s t) (hs : LockedSince limiter s key since)
    (hactive : t.now < since + limiter.lockoutSeconds) :
    LockedSince limiter t key since ∨
      ∃ u e u', Reaches (step limiter) (Fair limiter) s u ∧ Saturated limiter u e ∧
        step limiter u e = some u' ∧ Reaches (step limiter) (Fair limiter) u' t := by
  induction h with
  | refl => exact Or.inl hs
  | @tail v w e hreach hfair hnext ih =>
      have hbefore : v.now < since + limiter.lockoutSeconds :=
        Nat.lt_of_le_of_lt (now_le_of_step hnext) hactive
      obtain hv | ⟨u, e', u', hu, hsat, hstep, hlater⟩ := ih hbefore
      · obtain hw | hsat := lockedSince_step hv hbefore hfair hnext
        · exact Or.inl hw
        · exact Or.inr ⟨v, e, w, hreach, hsat, hnext, .refl⟩
      · exact Or.inr ⟨u, e', u', hu, hsat, hstep, .tail hlater hfair hnext⟩

/-- **Lockouts under other clients' failures.**  Registering a failure spares
the lockouts of others exactly if it is `Fair`; the map is bounded; and along
fair steps a client that reached the threshold stays locked out until
`lockout_seconds` after its last failure, unless on the way the map held
nothing but lockouts. -/
theorem lockouts_hold_while_fair (limiter : LoginRateLimiter) (now : ℕ) :
    (∀ (s : LoginWorld κ) key, Reachable (step limiter) (start now) s →
        (limiter.SparesLockouts s.now s.failures key ↔ Fair limiter s (.checked key false))) ∧
      (∀ s : LoginWorld κ, Reachable (step limiter) (start now) s → s.failures.size ≤ 10001) ∧
      ∀ (s t : LoginWorld κ) key, Reachable (step limiter) (start now) s →
        Reaches (step limiter) (Fair limiter) s t →
        limiter.maxFailures ≤ (s.failures.get key).count →
        t.now < (s.failures.get key).lastFailure + limiter.lockoutSeconds →
          limiter.isLocked t.now t.failures key = true ∨
            ∃ u e u', Reaches (step limiter) (Fair limiter) s u ∧ Saturated limiter u e ∧
              step limiter u e = some u' ∧ Reaches (step limiter) (Fair limiter) u' t := by
  refine ⟨fun s key _ => LoginRateLimiter.sparesLockouts_iff, fun s h => size_le_of_reachable h, ?_⟩
  intro s t key hs h hcount hactive
  have hsince : LockedSince limiter s key (s.failures.get key).lastFailure :=
    ⟨hcount, Nat.le_refl _, lastFailure_le_of_reachable hs key⟩
  exact (lockedSince_of_reaches h hsince hactive).imp_left fun ht => ht.isLocked hactive

/-! ## Five failures -/

instance decidableFair (s : LoginWorld ℕ) : DecidablePred (Fair limiter s)
  | .ask _ => inferInstanceAs (Decidable True)
  | .checked key false => inferInstanceAs (Decidable
      ((∀ k ∈ LoginRateLimiter.evicted s.failures, k ≠ key →
          limiter.isLocked s.now s.failures k = false) ∨
        ∀ u ∈ s.failures.keys, u ∉ LoginRateLimiter.evicted s.failures ∨ u = key →
          limiter.isLocked s.now s.failures u = true))
  | .checked key true => inferInstanceAs (Decidable (limiter.isLocked s.now s.failures key = false))
  | .wait _ => inferInstanceAs (Decidable True)

/-- Client 0 fails five times, and client 1 is having its password checked. -/
def fiveFailures : List (LoginEvent ℕ) :=
  (List.replicate 5 [.ask 0, .checked 0 false]).flatten ++ [.ask 1]

/-- Client 1 fails, client 2 gets in, and client 0 is refused. -/
def nextTwenty : List (LoginEvent ℕ) :=
  [.checked 1 false, .wait 20, .ask 2, .checked 2 true, .ask 0]

/-- A locked client, another failing beside it, twenty seconds on. -/
theorem lockouts_hold_while_fair_nextTwenty :
    ∃ s t : LoginWorld ℕ, replay (step {}) fiveFailures (start 0) = some s ∧
      Reaches (step {}) (Fair {}) s t ∧ t.now = 20 ∧ t.failures.keys = [0, 1] ∧
      (({} : LoginRateLimiter).isLocked t.now t.failures 0 = true ∨
        ∃ u e u', Reaches (step {}) (Fair {}) s u ∧ Saturated {} u e ∧
          step {} u e = some u' ∧ Reaches (step {}) (Fair {}) u' t) := by
  have hran : (replay (step {}) fiveFailures (start 0)).bind (fun s =>
      (replay (guardedStep (step {}) (Fair {})) nextTwenty s).map fun t =>
        ((s.failures.get 0).count, (s.failures.get 0).lastFailure, t.now, t.failures.keys)) =
      some (5, 0, 20, [0, 1]) := by decide
  obtain ⟨s, hs, hlater⟩ := Option.bind_eq_some_iff.mp hran
  obtain ⟨t, ht, hfields⟩ := Option.map_eq_some_iff.mp hlater
  simp only [Prod.mk.injEq] at hfields
  obtain ⟨hcount, hlast, hnow, hkeys⟩ := hfields
  have hfair : Reaches (step {}) (Fair {}) s t := reaches_of_replay_guardedStep ht
  refine ⟨s, t, hs, hfair, hnow, hkeys, ?_⟩
  refine (lockouts_hold_while_fair {} 0).2.2 s t 0 (reachable_of_replay hs) hfair ?_ ?_
  · rw [hcount]
  · rw [hnow, hlast]
    decide

/-! ## A flood of clients -/

/-- A login of a client that is not locked out, with a wrong password. -/
theorem reachable_failure {now : ℕ} {s : LoginWorld κ} (hs : Reachable (step limiter) (start now) s)
    {key : κ} (hkey : limiter.isLocked s.now s.failures key = false) :
    Reachable (step limiter) (start now)
      { s with failures := limiter.registerFailure s.now s.failures key } := by
  have hask : step limiter s (.ask key) =
      some { s with checking := Function.update s.checking key (s.checking key + 1) } := by
    simp [step, hkey]
  refine .tail (.tail hs trivial hask) (a := .checked key false) trivial ?_
  simp [step]

/-- Client 0 is locked out, and clients 1 to `n` have failed once, all at the
same time. -/
structure Flooded (n : ℕ) (s : LoginWorld ℕ) : Prop where
  reached : Reachable (step {}) (start 0) s
  now : s.now = 0
  keys : s.failures.keys = List.range (n + 1)
  sameTime : ∀ entry ∈ s.failures.entries, entry.2.lastFailure = 0
  victim : 5 ≤ (s.failures.get 0).count
  others : ∀ k, 0 < k → (s.failures.get k).count ≤ 1

/-- Five failures of client 0 lock it out. -/
theorem flooded_zero : ∃ s, Flooded 0 s := by
  let fail (s : LoginWorld ℕ) : LoginWorld ℕ :=
    { s with failures := ({} : LoginRateLimiter).registerFailure s.now s.failures 0 }
  have once : Reachable (step {}) (start 0) (fail (start 0)) := reachable_failure .refl (by decide)
  have twice : Reachable (step {}) (start 0) (fail (fail (start 0))) :=
    reachable_failure once (by decide)
  have thrice : Reachable (step {}) (start 0) (fail (fail (fail (start 0)))) :=
    reachable_failure twice (by decide)
  have fourTimes : Reachable (step {}) (start 0) (fail (fail (fail (fail (start 0))))) :=
    reachable_failure thrice (by decide)
  have fiveTimes : Reachable (step {}) (start 0) (fail (fail (fail (fail (fail (start 0)))))) :=
    reachable_failure fourTimes (by decide)
  refine ⟨_, fiveTimes, rfl, by decide, by decide, by decide, fun k hk => ?_⟩
  have hnot : k ∉ (fail (fail (fail (fail (fail (start 0)))))).failures.keys := by
    rw [show (fail (fail (fail (fail (fail (start 0)))))).failures.keys = [0] by decide]
    simpa using Nat.ne_of_gt hk
  rw [FailureMap.get_of_notMem hnot]
  exact Nat.zero_le 1

/-- One more client fails while the map is not too large. -/
theorem Flooded.succ {n : ℕ} {s : LoginWorld ℕ} (h : Flooded n s) (hn : n < 10000) :
    ∃ s', Flooded (n + 1) s' := by
  have hnew : n + 1 ∉ s.failures.keys := by
    rw [h.keys, List.mem_range]
    omega
  have hnever : s.failures.get (n + 1) = ⟨0, 0⟩ := FailureMap.get_of_notMem hnew
  have hsize : s.failures.size = n + 1 := by
    rw [← List.length_range (n := n + 1), ← h.keys]
    exact (List.length_map Prod.fst).symm
  have hevicted : LoginRateLimiter.evicted s.failures = [] := by
    rw [LoginRateLimiter.evicted, hsize, if_neg]
    exact Nat.not_lt.mpr hn
  have hfail : ({} : LoginRateLimiter).registerFailure s.now s.failures (n + 1) =
      s.failures.set (n + 1) ⟨1, 0⟩ := by
    simp [LoginRateLimiter.registerFailure, hevicted, FailureMap.drop_nil, hnever, h.now]
  have hfree : ({} : LoginRateLimiter).isLocked s.now s.failures (n + 1) = false := by
    simp [LoginRateLimiter.isLocked, hnever]
  have hreach := reachable_failure h.reached hfree
  rw [hfail] at hreach
  refine ⟨_, hreach, h.now, ?_, ?_, ?_, fun k hk => ?_⟩
  · rw [FailureMap.keys, FailureMap.entries_set_of_notMem hnew, List.map_append, List.range_succ,
      ← h.keys]
    rfl
  · rw [FailureMap.entries_set_of_notMem hnew]
    intro entry hentry
    obtain hold | hone := List.mem_append.mp hentry
    · exact h.sameTime entry hold
    · rw [List.mem_singleton.mp hone]
  · rw [FailureMap.get_set_of_ne (by omega)]
    exact h.victim
  · by_cases hkey : k = n + 1
    · have hone : (s.failures.set (n + 1) ⟨1, 0⟩).get (n + 1) = ⟨1, 0⟩ := FailureMap.get_set_self
      rw [hkey]
      exact Nat.le_of_eq (congrArg FailureRecord.count hone)
    · rw [FailureMap.get_set_of_ne hkey]
      exact h.others k hk

/-- The map can be filled up to its bound at one time. -/
theorem exists_flooded {n : ℕ} (hn : n ≤ 10000) : ∃ s, Flooded n s := by
  induction n with
  | zero => exact flooded_zero
  | succ n ih =>
      obtain ⟨s, hs⟩ := ih (by omega)
      exact hs.succ (by omega)

/-- Where all failures are from one time, the keys that were opened first go first. -/
theorem Flooded.evicted {s : LoginWorld ℕ} (h : Flooded 10000 s) :
    LoginRateLimiter.evicted s.failures = List.range 2000 := by
  have hsize : s.failures.size = 10001 := by
    rw [← List.length_range (n := 10001), ← h.keys]
    exact (List.length_map Prod.fst).symm
  have hsorted : (s.failures.entries.mergeSort fun a b =>
      decide (a.2.lastFailure ≤ b.2.lastFailure)) = s.failures.entries := by
    apply List.mergeSort_of_pairwise
    apply List.pairwise_of_forall_mem_list
    intro a ha b hb
    rw [h.sameTime a ha, h.sameTime b hb]
    rfl
  rw [LoginRateLimiter.evicted, hsize, if_pos (by decide), FailureMap.oldest, hsorted,
    List.map_take]
  rw [show s.failures.entries.map Prod.fst = List.range 10001 from h.keys, List.take_range]
  rfl

/-- One more failure evicts the lockout of client 0 and keeps the 8,001 clients
that are far from one. -/
theorem not_sparesLockouts_flooded :
    ¬ ∀ (s s' : LoginWorld ℕ) (key : ℕ), Reachable (step {}) (start 0) s →
        step {} s (.checked key false) = some s' →
          ({} : LoginRateLimiter).SparesLockouts s.now s.failures key := by
  intro hall
  obtain ⟨s, hs⟩ := exists_flooded (Nat.le_refl 10000)
  have hfree : ∀ k, 0 < k → ({} : LoginRateLimiter).isLocked s.now s.failures k = false := by
    intro k hk
    have hcount := hs.others k hk
    simp only [LoginRateLimiter.isLocked, Bool.and_eq_false_iff, decide_eq_false_iff_not]
    exact Or.inl (by omega)
  have hvictim : ({} : LoginRateLimiter).isLocked s.now s.failures 0 = true := by
    have hcount := hs.victim
    simp only [LoginRateLimiter.isLocked, Bool.and_eq_true, decide_eq_true_eq, hs.now]
    exact ⟨hcount, by omega⟩
  have hask : step {} s (.ask 10001) =
      some { s with checking := Function.update s.checking 10001 (s.checking 10001 + 1) } := by
    simp [step, hfree 10001]
  have hspares := hall _ _ 10001 (.tail hs.reached trivial hask) (by simp [step]; rfl)
  obtain hnone | honly := LoginRateLimiter.sparesLockouts_iff.mp hspares
  · have hspared := hnone 0 (by rw [hs.evicted, List.mem_range]; decide) (by decide)
    exact absurd hvictim (by rw [hspared]; decide)
  · have hin : 10000 ∈ s.failures.keys := by
      rw [hs.keys, List.mem_range]
      decide
    have hstays : 10000 ∉ LoginRateLimiter.evicted s.failures := by
      rw [hs.evicted, List.mem_range]
      decide
    exact absurd (honly 10000 hin (Or.inl hstays)) (by rw [hfree 10000 (by decide)]; decide)

end LoginWorld

end Nebularr
