import Mathlib.Data.Nat.Notation
import Mathlib.Logic.Function.Basic
import Nebularr.Transitions

/-!
# A value read through a cache with a time to live

Threads read a value off a shared store through one cache.  A read takes the
time, the cached value and the cached time one after the other, and keeps what
it loaded in two writes, so other reads and changes of the store come in
between any two of them.  The cached time is therefore no evidence of how old
the cached value is.  The load is one access: what it takes together is taken
off the store of one moment.

`Readable s v` is that a read can still return `v`.  Only a change of the store
adds to it (`readable_step`), which is all that invariants need.
-/

namespace CachedReads

/-- How far a read has come. -/
inductive ReadPhase (V : Type)
  | idle
  | began (stamp : ℕ)
  | sawCache (stamp : ℕ) (cached : V)
  | missed (stamp : ℕ)
  | loaded (stamp : ℕ) (value : V)
  | kept (stamp : ℕ) (value : V)
  | done (value : V)
deriving DecidableEq, Repr

/-- The value that a read has got hold of. -/
def ReadPhase.value? {V : Type} : ReadPhase V → Option V
  | sawCache _ v | loaded _ v | kept _ v | done v => some v
  | _ => none

/-- The store, the cache over it, and the reads under way. -/
structure CachedStore (S V : Type) where
  store : S
  cache : Option V
  cachedAt : ℕ
  now : ℕ
  reads : ℕ → ReadPhase V

/-- What the threads do, one access at a time. -/
inductive CacheAction (S : Type)
  | tick
  | start (i : ℕ)
  | look (i : ℕ)
  | age (i : ℕ)
  | load (i : ℕ)
  | keep (i : ℕ)
  | stamp (i : ℕ)
  | finish (i : ℕ)
  | commit (store : S)
  | clearValue
  | clearTime

variable {S V : Type}

/-- Move one read on. -/
def CachedStore.setRead (s : CachedStore S V) (i : ℕ) (phase : ReadPhase V) : CachedStore S V :=
  { s with reads := Function.update s.reads i phase }

/-- One access; `none` where a read is not so far. -/
def step (read : S → V) (ttl : ℕ) (s : CachedStore S V) : CacheAction S → Option (CachedStore S V)
  | .tick => some { s with now := s.now + 1 }
  | .start i =>
      match s.reads i with
      | .idle => some (s.setRead i (.began s.now))
      | _ => none
  | .look i =>
      match s.reads i with
      | .began stamp => some (s.setRead i (s.cache.elim (.missed stamp) (.sawCache stamp)))
      | _ => none
  | .age i =>
      match s.reads i with
      | .sawCache stamp v =>
          some (s.setRead i (if stamp < s.cachedAt + ttl then .done v else .missed stamp))
      | _ => none
  | .load i =>
      match s.reads i with
      | .missed stamp => some (s.setRead i (.loaded stamp (read s.store)))
      | _ => none
  | .keep i =>
      match s.reads i with
      | .loaded stamp v => some { s.setRead i (.kept stamp v) with cache := some v }
      | _ => none
  | .stamp i =>
      match s.reads i with
      | .kept stamp v => some { s.setRead i (.done v) with cachedAt := stamp }
      | _ => none
  | .finish i =>
      match s.reads i with
      | .done _ => some (s.setRead i .idle)
      | _ => none
  | .commit store => some { s with store := store }
  | .clearValue => some { s with cache := none }
  | .clearTime => some { s with cachedAt := 0 }

/-- A value that is stored, cached or in the hands of a read. -/
inductive Readable (read : S → V) (s : CachedStore S V) (v : V) : Prop
  | stored (h : v = read s.store)
  | cached (h : s.cache = some v)
  | inHand (i : ℕ) (h : (s.reads i).value? = some v)

/-- Nothing is cached and nobody reads. -/
structure Quiet (s : CachedStore S V) : Prop where
  cache : s.cache = none
  reads : ∀ i, s.reads i = .idle

variable {read : S → V} {ttl : ℕ} {s s' : CachedStore S V} {v : V}

theorem readable_of_quiet (h : Quiet s) (hv : Readable read s v) : v = read s.store := by
  cases hv with
  | stored h => exact h
  | cached hcache =>
      rw [h.cache] at hcache
      cases hcache
  | inHand i hread =>
      rw [h.reads i] at hread
      cases hread

/-- A state that has no value of its own. -/
theorem readable_of_subset {t : CachedStore S V} (hv : Readable read t v)
    (hstore : t.store = s.store)
    (hcache : ∀ w, t.cache = some w → Readable read s w)
    (hreads : ∀ i w, (t.reads i).value? = some w → Readable read s w) : Readable read s v := by
  cases hv with
  | stored h => exact .stored (hstore ▸ h)
  | cached h => exact hcache v h
  | inHand i h => exact hreads i v h

theorem value_setRead {i j : ℕ} {phase : ReadPhase V} {w : V}
    (h : ((s.setRead i phase).reads j).value? = some w) :
    phase.value? = some w ∨ (s.reads j).value? = some w := by
  by_cases hj : j = i
  · subst hj
    simpa [CachedStore.setRead] using Or.inl h
  · exact Or.inr (by simpa [CachedStore.setRead, Function.update_of_ne hj] using h)

/-- A read that moves on, and what it then has was there before; it may have
put it in the cache. -/
theorem readable_setRead {t : CachedStore S V} (hv : Readable read t v) (i : ℕ)
    (phase : ReadPhase V)
    (hreads : t.reads = (s.setRead i phase).reads) (hstore : t.store = s.store)
    (hcache : ∀ w, t.cache = some w → s.cache = some w ∨ phase.value? = some w)
    (hphase : ∀ w, phase.value? = some w → Readable read s w) : Readable read s v := by
  refine readable_of_subset hv hstore (fun w hw => ?_) (fun j w hw => ?_)
  · exact (hcache w hw).elim .cached (hphase w)
  · rw [hreads] at hw
    exact (value_setRead hw).elim (hphase w) (.inHand j)

/-- **Only a change of the store adds a value.** -/
theorem readable_step {a : CacheAction S} (h : step read ttl s a = some s')
    (hv : Readable read s' v) :
    Readable read s v ∨ ∃ store, a = .commit store ∧ v = read store := by
  cases a with
  | commit store =>
      obtain rfl := Option.some.inj h
      cases hv with
      | stored h => exact Or.inr ⟨store, rfl, h⟩
      | cached h => exact Or.inl (.cached h)
      | inHand i h => exact Or.inl (.inHand i h)
  | tick | clearTime =>
      obtain rfl := Option.some.inj h
      exact Or.inl (readable_of_subset (s := s) hv rfl (fun _ hw => .cached hw)
        fun i _ hw => .inHand i hw)
  | clearValue =>
      obtain rfl := Option.some.inj h
      refine Or.inl (readable_of_subset (s := s) hv rfl (fun w hw => ?_) fun i _ hw => .inHand i hw)
      cases hw
  | start i =>
      cases hread : s.reads i <;> simp only [step, hread, Option.some.injEq, reduceCtorEq] at h
      subst h
      refine Or.inl (readable_setRead hv i (.began s.now) rfl rfl (fun _ => Or.inl) fun w hw => ?_)
      cases hw
  | finish i =>
      cases hread : s.reads i <;> simp only [step, hread, Option.some.injEq, reduceCtorEq] at h
      subst h
      refine Or.inl (readable_setRead hv i .idle rfl rfl (fun _ => Or.inl) fun w hw => ?_)
      cases hw
  | look i =>
      cases hread : s.reads i <;> simp only [step, hread, Option.some.injEq, reduceCtorEq] at h
      subst h
      refine Or.inl (readable_setRead hv i _ rfl rfl (fun _ => Or.inl) fun w hw => .cached ?_)
      cases hcache : s.cache with
      | none =>
          rw [hcache] at hw
          cases hw
      | some u =>
          rw [hcache] at hw
          exact hw
  | age i =>
      cases hread : s.reads i <;> simp only [step, hread, Option.some.injEq, reduceCtorEq] at h
      subst h
      refine Or.inl (readable_setRead hv i _ rfl rfl (fun _ => Or.inl) fun w hw => .inHand i ?_)
      rw [hread]
      split at hw
      · exact hw
      · cases hw
  | load i =>
      cases hread : s.reads i <;> simp only [step, hread, Option.some.injEq, reduceCtorEq] at h
      subst h
      refine Or.inl (readable_setRead hv i (.loaded _ (read s.store)) rfl rfl (fun _ => Or.inl) ?_)
      exact fun w hw => .stored (Option.some.inj hw).symm
  | keep i =>
      cases hread : s.reads i <;> simp only [step, hread, Option.some.injEq, reduceCtorEq] at h
      subst h
      refine Or.inl
        (readable_setRead hv i (.kept _ _) rfl rfl (fun _ => Or.inr) fun w hw => .inHand i ?_)
      rw [hread]
      exact hw
  | stamp i =>
      cases hread : s.reads i <;> simp only [step, hread, Option.some.injEq, reduceCtorEq] at h
      subst h
      refine Or.inl
        (readable_setRead hv i (.done _) rfl rfl (fun _ => Or.inl) fun w hw => .inHand i ?_)
      rw [hread]
      exact hw

end CachedReads
