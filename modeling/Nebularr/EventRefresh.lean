import Nebularr.ServerEvents

/-!
# What the page keeps of the stream

While the effect of `useServerEvents` is mounted there is one source or one timer
that will open the next, never both and never neither
(`serverEvents_connection`), and an event is not forgotten before its queries are
invalidated (`serverEvents_refresh`).
-/

namespace Nebularr

/-! ## Invalidations to come -/

/-- The timers of `scheduleInvalidate` and the map that has them. -/
structure Debounced (s : Hook) : Prop where
  own : ∀ timer ∈ s.refreshes,
    timer.effect = s.current ∧ (s.effects s.current).debounceTimers timer.key = some timer.id
  pending : ∀ key id, (s.effects s.current).debounceTimers key = some id →
    ∃ timer ∈ s.refreshes, timer.key = key ∧ timer.id = id
  below : ∀ timer ∈ s.refreshes, timer.id < s.fresh
  nodup : (s.refreshes.map RefreshTimer.id).Nodup
  due : ∀ timer ∈ s.refreshes, timer.due ≤ s.now + invalidateDebounceMs
  stale : ∀ key time, s.stale key = some time →
    ∃ timer ∈ s.refreshes, timer.key = key ∧ timer.due = time + invalidateDebounceMs

namespace Debounced

variable {s : Hook}

/-- One timer for each key. -/
theorem eq_of_key_eq (h : Debounced s) {timer other : RefreshTimer} (ht : timer ∈ s.refreshes)
    (ho : other ∈ s.refreshes) (hkey : timer.key = other.key) : timer = other := by
  have hid : some timer.id = some other.id := by
    rw [← (h.own timer ht).2, ← (h.own other ho).2, hkey]
  exact List.inj_on_of_nodup_map h.nodup ht ho (Option.some.inj hid)

/-- The timers that a `clearTimeout` leaves. -/
theorem mem_filter_iff (h : Debounced s) {timer : RefreshTimer} (ht : timer ∈ s.refreshes)
    (other : RefreshTimer) :
    other ∈ s.refreshes.filter (·.id != timer.id) ↔
      other ∈ s.refreshes ∧ other.key ≠ timer.key := by
  rw [List.mem_filter, bne_iff_ne]
  refine and_congr_right fun ho => not_congr ?_
  constructor
  · intro hid
    rw [List.inj_on_of_nodup_map h.nodup ho ht hid]
  · intro hkey
    rw [h.eq_of_key_eq ho ht hkey]

/-- What `scheduleInvalidate` leaves of the timers: those of other keys. -/
theorem mem_withoutTimer (h : Debounced s) (key : QueryKey) (other : RefreshTimer) :
    other ∈ s.withoutTimer s.current key ↔ other ∈ s.refreshes ∧ other.key ≠ key := by
  unfold Hook.withoutTimer
  cases hmap : (s.effects s.current).debounceTimers key with
  | none =>
      refine (and_iff_left_of_imp fun ho hkey => ?_).symm
      have hown := (h.own other ho).2
      rw [hkey, hmap] at hown
      cases hown
  | some id =>
      obtain ⟨timer, ht, hkey, rfl⟩ := h.pending key id hmap
      rw [← hkey]
      exact h.mem_filter_iff ht other

/-- Clearing a timer adds none. -/
theorem withoutTimer_sublist (s : Hook) (key : QueryKey) :
    (s.withoutTimer s.current key).Sublist s.refreshes := by
  unfold Hook.withoutTimer
  split
  · exact List.Sublist.refl _
  · exact List.filter_sublist

/-- A message schedules one refresh of its key. -/
theorem scheduleInvalidate (h : Debounced s) (key : QueryKey) :
    Debounced (s.scheduleInvalidate s.current key) := by
  have hmem := h.mem_withoutTimer key
  unfold Hook.scheduleInvalidate
  constructor
  · intro timer ht
    simp only [Function.update_self]
    rcases List.mem_cons.mp ht with rfl | ht
    · exact ⟨rfl, Function.update_self ..⟩
    · obtain ⟨hold, hkey⟩ := (hmem timer).mp ht
      obtain ⟨howner, hmap⟩ := h.own timer hold
      exact ⟨howner, (Function.update_of_ne hkey ..).trans hmap⟩
  · intro k id hk
    simp only [Function.update_self] at hk
    by_cases hkey : k = key
    · rw [hkey, Function.update_self] at hk
      exact ⟨_, List.mem_cons_self, hkey.symm, Option.some.inj hk⟩
    · rw [Function.update_of_ne hkey] at hk
      obtain ⟨timer, ht, rfl, hid⟩ := h.pending k id hk
      exact ⟨timer, List.mem_cons_of_mem _ ((hmem timer).mpr ⟨ht, hkey⟩), rfl, hid⟩
  · intro timer ht
    rcases List.mem_cons.mp ht with rfl | ht
    · exact Nat.lt_succ_self _
    · exact Nat.lt_succ_of_lt (h.below timer ((hmem timer).mp ht).1)
  · rw [List.map_cons, List.nodup_cons]
    refine ⟨fun hfresh => ?_, h.nodup.sublist ((withoutTimer_sublist s key).map _)⟩
    obtain ⟨timer, ht, hid⟩ := List.mem_map.mp hfresh
    have hlt := h.below timer ((hmem timer).mp ht).1
    simp only at hid
    omega
  · intro timer ht
    rcases List.mem_cons.mp ht with rfl | ht
    · exact Nat.le_refl _
    · exact h.due timer ((hmem timer).mp ht).1
  · intro k time hk
    dsimp only at hk
    by_cases hkey : k = key
    · rw [hkey, Function.update_self] at hk
      obtain rfl := Option.some.inj hk
      exact ⟨_, List.mem_cons_self, hkey.symm, rfl⟩
    · rw [Function.update_of_ne hkey] at hk
      obtain ⟨timer, ht, rfl, hdue⟩ := h.stale k time hk
      exact ⟨timer, List.mem_cons_of_mem _ ((hmem timer).mpr ⟨ht, hkey⟩), rfl, hdue⟩

/-- A refresh that fires clears its own timer. -/
theorem fireRefresh (h : Debounced s) {timer : RefreshTimer} (ht : timer ∈ s.refreshes) :
    Debounced (s.fireRefresh timer) := by
  have howner := (h.own timer ht).1
  have hmem := h.mem_filter_iff ht
  unfold Hook.fireRefresh
  rw [howner]
  constructor
  · intro other ho
    obtain ⟨hold, hkey⟩ := (hmem other).mp ho
    obtain ⟨hcurrent, hmap⟩ := h.own other hold
    simp only [Function.update_self]
    exact ⟨hcurrent, (Function.update_of_ne hkey ..).trans hmap⟩
  · intro k id hk
    simp only [Function.update_self] at hk
    by_cases hkey : k = timer.key
    · rw [hkey, Function.update_self] at hk
      cases hk
    · rw [Function.update_of_ne hkey] at hk
      obtain ⟨other, ho, rfl, hid⟩ := h.pending k id hk
      exact ⟨other, (hmem other).mpr ⟨ho, hkey⟩, rfl, hid⟩
  · intro other ho
    exact h.below other ((hmem other).mp ho).1
  · exact h.nodup.sublist (List.filter_sublist.map _)
  · intro other ho
    exact h.due other ((hmem other).mp ho).1
  · intro k time hk
    dsimp only at hk
    by_cases hkey : k = timer.key
    · rw [hkey, Function.update_self] at hk
      cases hk
    · rw [Function.update_of_ne hkey] at hk
      obtain ⟨other, ho, rfl, hdue⟩ := h.stale k time hk
      exact ⟨other, (hmem other).mpr ⟨ho, hkey⟩, rfl, hdue⟩

/-- What concerns no timer of `scheduleInvalidate`. -/
theorem congr {t : Hook} (h : Debounced s) (hcurrent : t.current = s.current)
    (hrefreshes : t.refreshes = s.refreshes)
    (hmap : (t.effects s.current).debounceTimers = (s.effects s.current).debounceTimers)
    (hfresh : s.fresh ≤ t.fresh) (hnow : s.now ≤ t.now)
    (hstale : ∀ key time, t.stale key = some time → s.stale key = some time) : Debounced t where
  own timer ht := by
    rw [hcurrent, hmap]
    exact h.own timer (hrefreshes ▸ ht)
  pending key id hid := by
    rw [hcurrent, hmap] at hid
    rw [hrefreshes]
    exact h.pending key id hid
  below timer ht := Nat.lt_of_lt_of_le (h.below timer (hrefreshes ▸ ht)) hfresh
  nodup := by
    rw [hrefreshes]
    exact h.nodup
  due timer ht := Nat.le_trans (h.due timer (hrefreshes ▸ ht)) (Nat.add_le_add_right hnow _)
  stale key time htime := by
    rw [hrefreshes]
    exact h.stale key time (hstale key time htime)

/-- Without timers there is nothing to say. -/
theorem of_nil {t : Hook} (hrefreshes : t.refreshes = [])
    (hmap : ∀ key, (t.effects t.current).debounceTimers key = none)
    (hstale : ∀ key, t.stale key = none) :
    Debounced t where
  own timer ht := by simp [hrefreshes] at ht
  pending key id hid := by
    rw [hmap key] at hid
    cases hid
  below timer ht := by simp [hrefreshes] at ht
  nodup := by simp [hrefreshes]
  due timer ht := by simp [hrefreshes] at ht
  stale key time htime := by
    rw [hstale key] at htime
    cases htime

/-- A new source changes no timer. -/
theorem openSource (h : Debounced s) (m : ℕ) : Debounced (s.openSource m) := by
  unfold Hook.openSource
  split
  · exact h
  · refine h.congr rfl rfl ?_ (Nat.le_succ _) (Nat.le_refl _) fun _ _ htime => htime
    simp only [Hook.setSource]
    by_cases hm : s.current = m
    · subst hm
      rw [Function.update_self]
    · rw [Function.update_of_ne hm]

/-- All timers of a hook that has just been cleaned up are cleared. -/
theorem refreshes_cleanup (h : Debounced s) : (s.cleanup s.current).refreshes = [] := by
  apply List.filter_eq_nil_iff.mpr
  intro timer ht
  have hmap := (h.own timer ht).2
  simp only [Bool.not_eq_true', Bool.not_eq_false, List.any_eq_true, decide_eq_true_eq]
  exact ⟨timer.key, QueryKey.mem_all _, hmap⟩

end Debounced

/-! ## Every state -/

structure Steady (s : Hook) : Prop where
  connection : Connection s
  debounced : Debounced s

/-- What concerns the timers of `scheduleInvalidate` only. -/
theorem Connection.congr {s t : Hook} (h : Connection s) (hmounted : s.mounted = true)
    (hcurrent : t.current = s.current) (hsources : t.sources = s.sources)
    (hreopens : t.reopens = s.reopens)
    (hdisposed : (t.effects s.current).disposed = (s.effects s.current).disposed)
    (hsource : (t.effects s.current).source = (s.effects s.current).source)
    (hrest : t.now = s.now ∧ t.reconnectTimer = s.reconnectTimer ∧ t.failures = s.failures ∧
      t.connected = s.connected) : Connection t := by
  obtain ⟨hnow, href, hfailures, hconnected⟩ := hrest
  have hmounted' : t.mounted = true := by
    rw [Hook.mounted, hcurrent, hdisposed]
    exact hmounted
  cases h with
  | gone hnot => simp [hmounted] at hnot
  | streaming id opened _ hone hid hnone =>
      refine .streaming id opened hmounted' ?_ ?_ (hreopens.trans hnone)
      · rw [hsources, hcurrent, hone]
      · rw [hcurrent, hsource, hid]
  | waiting timer armed _ hnone hno hone howner hid harmed hdue hquiet =>
      refine .waiting timer armed hmounted' (hsources.trans hnone) ?_
        (hreopens.trans hone) ?_ ?_ ?_ ?_ ?_
      · rw [hcurrent, hsource, hno]
      · rw [howner, hcurrent]
      · rw [href, hid]
      · rw [hnow]
        exact harmed
      · rw [hfailures, hdue]
      · rw [hconnected, hquiet]

/-- Time passes, and probes are answered. -/
theorem Connection.later {s : Hook} (h : Connection s) {now : ℕ} (hnow : s.now ≤ now)
    (probes : List ℕ)
    (signInAsked : Bool) :
    Connection { s with now := now, probes := probes, signInAsked := signInAsked } := by
  cases h with
  | gone hmounted hsources hreopens hrefreshes hconnected =>
      exact .gone hmounted hsources hreopens hrefreshes hconnected
  | streaming id opened hmounted hsources hsource hreopens =>
      exact .streaming id opened hmounted hsources hsource hreopens
  | waiting timer armed hmounted hsources hsource hreopens howner href harmed hdue hconnected =>
      exact .waiting timer armed hmounted hsources hsource hreopens howner href
        (Nat.le_trans harmed hnow) hdue
        hconnected

namespace Steady

variable {s s' : Hook}

/-- A message schedules one refresh of its key. -/
theorem scheduleInvalidate (h : Steady s) (hmounted : s.mounted = true) (key : QueryKey) :
    Steady (s.scheduleInvalidate s.current key) where
  connection := by
    refine h.connection.congr hmounted rfl rfl rfl ?_ ?_ ⟨rfl, rfl, rfl, rfl⟩
    · simp [Hook.scheduleInvalidate]
    · simp [Hook.scheduleInvalidate]
  debounced := h.debounced.scheduleInvalidate key

/-- The queries of an event, one after another. -/
theorem message (keys : List QueryKey) {m : ℕ} (h : Steady s) (hmounted : s.mounted = true)
    (hcurrent : m = s.current) :
    Steady (keys.foldl (fun s key => s.scheduleInvalidate m key) s) := by
  induction keys generalizing s with
  | nil => exact h
  | cons key rest ih =>
      subst hcurrent
      apply ih (h.scheduleInvalidate hmounted key)
      · simpa [Hook.mounted, Hook.scheduleInvalidate] using hmounted
      · rfl

/-- A refresh that fires clears its own timer. -/
theorem fireRefresh (h : Steady s) {timer : RefreshTimer} (ht : timer ∈ s.refreshes) :
    Steady (s.fireRefresh timer) where
  connection := by
    have howner := (h.debounced.own timer ht).1
    have hmounted : s.mounted = true := by
      by_contra hnot
      cases h.connection with
      | gone _ _ _ hnone => simp [hnone] at ht
      | streaming id opened hmounted => exact hnot hmounted
      | waiting other armed hmounted => exact hnot hmounted
    refine h.connection.congr hmounted rfl rfl rfl ?_ ?_ ⟨rfl, rfl, rfl, rfl⟩
    · simp [Hook.fireRefresh, howner]
    · simp [Hook.fireRefresh, howner]
  debounced := h.debounced.fireRefresh ht

/-- A source that fails keeps the hook steady. -/
theorem onSourceError (h : Steady s) {source : EventSource} (hmem : source ∈ s.sources) :
    Steady (s.onSourceError source.effect) where
  connection := h.connection.onSourceError hmem
  debounced := by
    obtain ⟨hmounted, -, howner, -, -⟩ := h.connection.source_of_mem hmem
    have hclose : ({ s with connected := false } : Hook).closeSource s.current =
        { s with connected := false, sources := [] } :=
          Hook.closeSource_eq h.connection.source_eq_of_mem
    unfold Hook.onSourceError
    rw [howner, hclose]
    split
    · refine h.debounced.congr rfl rfl ?_ (Nat.le_refl _) (Nat.le_refl _) fun _ _ htime => htime
      simp [Hook.setSource]
    · refine h.debounced.congr rfl rfl ?_ (Nat.le_succ _) (Nat.le_refl _) fun _ _ htime => htime
      simp [Hook.setSource]

/-- A tab that comes back keeps the hook steady. -/
theorem onVisible (h : Steady s) (hmounted : s.mounted = true) :
    Steady (s.onVisible s.current) where
  connection := by
    have hreconnect := h.connection.reconnectNow hmounted
    have hmounted' : (s.reconnectNow s.current).mounted = true := by
      rw [h.connection.reconnectNow_eq]
      simp [Hook.mounted, Hook.openSource, Hook.setSource, Connection.disposed_of_mounted hmounted]
    exact hreconnect.congr hmounted' rfl rfl rfl rfl rfl ⟨rfl, rfl, rfl, rfl⟩
  debounced := by
    have hbefore : Debounced (({ s with
        reopens := [], failures := 0, reconnectTimer := none, sources :=
          [] } : Hook).setSource s.current none) := by
      refine h.debounced.congr rfl rfl ?_ (Nat.le_refl _) (Nat.le_refl _) fun _ _ htime => htime
      simp [Hook.setSource]
    have hafter := hbefore.openSource s.current
    rw [← h.connection.reconnectNow_eq] at hafter
    refine hafter.congr rfl rfl rfl (Nat.le_refl _) (Nat.le_refl _) fun key time htime => ?_
    have hstale : (s.reconnectNow s.current).stale = s.stale := by
      rw [h.connection.reconnectNow_eq]
      unfold Hook.openSource
      split <;> rfl
    rw [hstale]
    simp only [Hook.onVisible] at htime
    split at htime
    · cases htime
    · exact htime

/-- The clean-up keeps the hook steady. -/
theorem cleanup (h : Steady s) : Steady (s.cleanup s.current) := by
  have hrefreshes := h.debounced.refreshes_cleanup
  unfold Hook.cleanup at hrefreshes ⊢
  rw [h.connection.cleanup_eq] at hrefreshes ⊢
  constructor
  · refine .gone ?_ rfl rfl hrefreshes rfl
    simp [Hook.mounted]
  · refine .of_nil hrefreshes (fun key => ?_) fun key => rfl
    simp

/-- A mount keeps the hook steady. -/
theorem mount (h : Steady s) (hmounted : s.mounted = false) :
    Steady ({ s with
      effects := Function.update s.effects (s.current + 1) { disposed := false }
      current := s.current + 1 }.openSource (s.current + 1)) := by
  obtain ⟨hsources, hreopens, hrefreshes⟩ : s.sources = [] ∧ s.reopens = [] ∧ s.refreshes = [] := by
    cases h.connection with
    | gone _ hsources hreopens hrefreshes => exact ⟨hsources, hreopens, hrefreshes⟩
    | streaming id opened hnot => simp [hmounted] at hnot
    | waiting timer armed hnot => simp [hmounted] at hnot
  constructor
  · exact Connection.openSource rfl (by simp [Hook.mounted]) hsources hreopens
  · apply Debounced.openSource
    refine .of_nil hrefreshes (fun key => by simp) fun key => ?_
    cases hstale : s.stale key with
    | none => rfl
    | some time =>
        obtain ⟨timer, ht, -⟩ := h.debounced.stale key time hstale
        simp [hrefreshes] at ht

/-- A source that opens keeps the hook steady. -/
theorem onopen (h : Steady s) {source : EventSource} (hmem : source ∈ s.sources) (id : ℕ) :
    Steady { s with
      sources := s.sources.map fun source =>
        if source.id = id then { source with opened := true } else source
      failures := 0
      connected := true } where
  connection := by
    obtain ⟨hmounted, hone, howner, hsource, hreopens⟩ := h.connection.source_of_mem hmem
    by_cases hid : source.id = id
    · refine .streaming source.id true hmounted ?_ hsource hreopens
      simp [hone, hid, ← howner]
    · refine .streaming source.id source.opened hmounted ?_ hsource hreopens
      simp [hone, hid, ← howner]
  debounced := h.debounced.congr rfl rfl rfl (Nat.le_refl _) (Nat.le_refl _) fun _ _ htime => htime

/-- **One step keeps the hook steady.** -/
theorem step {a : HookAction} (h : Steady s) (hstep : hookStep s a = some s') : Steady s' := by
  cases a with
  | tick ms =>
      obtain rfl := Option.some.inj hstep
      exact ⟨h.connection.later (Nat.le_add_right _ _) s.probes s.signInAsked,
        h.debounced.congr rfl rfl rfl (Nat.le_refl _) (Nat.le_add_right _ _) fun _ _ htime => htime⟩
  | mount =>
      simp only [hookStep] at hstep
      split at hstep
      next => cases hstep
      next hmounted => exact Option.some.inj hstep ▸ h.mount (Bool.of_not_eq_true hmounted)
  | unmount =>
      simp only [hookStep] at hstep
      split at hstep
      next => exact Option.some.inj hstep ▸ h.cleanup
      next => cases hstep
  | onopen id =>
      simp only [hookStep] at hstep
      split at hstep
      next hany =>
        obtain ⟨source, hmem, -⟩ := List.any_eq_true.mp hany
        exact Option.some.inj hstep ▸ h.onopen hmem id
      next => cases hstep
  | onerror id =>
      obtain ⟨source, hfind, rfl⟩ := Option.map_eq_some_iff.mp hstep
      exact h.onSourceError (List.mem_of_find?_eq_some hfind)
  | message id event =>
      obtain ⟨source, hfind, rfl⟩ := Option.map_eq_some_iff.mp hstep
      obtain ⟨hmounted, -, howner, -, -⟩ :=
        h.connection.source_of_mem (List.mem_of_find?_eq_some hfind)
      exact h.message _ hmounted howner
  | reopen id =>
      obtain ⟨timer, hfind, rfl⟩ := Option.map_eq_some_iff.mp hstep
      obtain ⟨hmounted, hsources, hone, howner⟩ :=
        h.connection.timer_of_mem (List.mem_of_find?_eq_some hfind)
      have hid : timer.id = id := by
        have hmatch := List.find?_some hfind
        simp only [Bool.and_eq_true, beq_iff_eq] at hmatch
        exact hmatch.1
      constructor
      · refine Connection.openSource howner hmounted hsources ?_
        simp [hone, hid]
      · apply Debounced.openSource
        exact h.debounced.congr rfl rfl rfl (Nat.le_refl _) (Nat.le_refl _) fun _ _ htime => htime
  | refresh id =>
      obtain ⟨timer, hfind, rfl⟩ := Option.map_eq_some_iff.mp hstep
      exact h.fireRefresh (List.mem_of_find?_eq_some hfind)
  | visible =>
      simp only [hookStep] at hstep
      split at hstep
      next hmounted => exact Option.some.inj hstep ▸ h.onVisible hmounted
      next => cases hstep
  | authStatus n enabled authenticated =>
      obtain ⟨m, -, rfl⟩ := Option.map_eq_some_iff.mp hstep
      exact ⟨h.connection.later (Nat.le_refl _) _ _,
        h.debounced.congr rfl rfl rfl (Nat.le_refl _) (Nat.le_refl _) fun _ _ htime => htime⟩

end Steady

/-- The hook begins steady. -/
theorem steady_start : Steady {} where
  connection := .gone rfl rfl rfl rfl rfl
  debounced := .of_nil rfl (fun _ => rfl) fun _ => rfl

/-- **The hook is steady in every state.** -/
theorem steady_of_reachable {s : Hook} (h : Reachable hookStep {} s) : Steady s := by
  induction h with
  | refl => exact steady_start
  | tail _ _ hnext ih => exact ih.step hnext

/-- A reconnect waits a minute at most. -/
theorem reconnectDelayMs_le (failures : ℕ) : reconnectDelayMs failures ≤ 60000 :=
  Nat.min_le_right _ _

/-- **The connection.**  A mounted hook has one source or one timer that will open
the next within a minute, after a delay for its consecutive failures, and says
that it is connected only if it has a source; one that is not mounted has no
sources and no timers. -/
theorem serverEvents_connection {s : Hook} (h : Reachable hookStep {} s) :
    s.sources.length + s.reopens.length = s.mounted.toNat ∧
      (s.connected = true → s.sources ≠ []) ∧ (s.mounted = false → s.refreshes = []) ∧
        ∀ timer ∈ s.reopens, timer.due ≤ s.now + 60000 ∧
          ∃ armed ≤ s.now, timer.due = armed + reconnectDelayMs s.failures := by
  cases (steady_of_reachable h).connection with
  | gone hmounted hsources hreopens hrefreshes hconnected =>
      refine ⟨?_, fun hyes => ?_, fun _ => hrefreshes, fun timer hmem => ?_⟩
      · rw [hsources, hreopens, hmounted]
        rfl
      · rw [hconnected] at hyes
        cases hyes
      · simp [hreopens] at hmem
  | streaming id opened hmounted hsources hsource hreopens =>
      refine ⟨?_, fun _ => ?_, fun hnot => ?_, fun timer hmem => ?_⟩
      · rw [hsources, hreopens, hmounted]
        rfl
      · rw [hsources]
        exact List.cons_ne_nil _ _
      · rw [hmounted] at hnot
        cases hnot
      · simp [hreopens] at hmem
  | waiting timer armed hmounted hsources hsource hreopens howner href harmed hdue hconnected =>
      refine ⟨?_, fun hyes => ?_, fun hnot => ?_, fun other hmem => ?_⟩
      · rw [hsources, hreopens, hmounted]
        rfl
      · rw [hconnected] at hyes
        cases hyes
      · rw [hmounted] at hnot
        cases hnot
      · rw [hreopens, List.mem_singleton] at hmem
        subst hmem
        have hdelay := reconnectDelayMs_le s.failures
        exact ⟨by omega, armed, harmed, hdue⟩

/-- The page is shown, the stream opens and breaks, and the page tries again. -/
theorem serverEvents_connection_broken :
    ∃ s, replay hookStep [.mount, .onopen 0, .tick 20, .onerror 0, .tick 4999] {} = some s ∧
      s.sources = [] ∧ s.sources.length + s.reopens.length = s.mounted.toNat ∧
        ∀ timer ∈ s.reopens, timer.due ≤ s.now + 60000 := by
  obtain ⟨s, hrun, hsources⟩ :
      ∃ s, replay hookStep [.mount, .onopen 0, .tick 20, .onerror 0, .tick 4999] {} = some s ∧
        s.sources = [] := ⟨_, rfl, rfl⟩
  obtain ⟨hone, -, -, hdue⟩ := serverEvents_connection (reachable_of_replay hrun)
  exact ⟨s, hrun, hsources, hone, fun timer hmem => (hdue timer hmem).1⟩

/-! ## No event is forgotten -/

/-- The actions that invalidate a key, or clean up. -/
def Invalidates (key : QueryKey) (s : Hook) : HookAction → Prop
  | .unmount => True
  | .visible => key ∈ visibilityRefreshKeys
  | .refresh id => ∃ timer ∈ s.refreshes, timer.id = id ∧ timer.key = key
  | _ => False

/-- A message makes its keys stale, and no other. -/
theorem stale_message (keys : List QueryKey) (s : Hook) (m : ℕ) (key : QueryKey) :
    (keys.foldl (fun s key => s.scheduleInvalidate m key) s).stale key =
      if key ∈ keys then some s.now else s.stale key := by
  induction keys generalizing s with
  | nil => rfl
  | cons first rest ih =>
      rw [List.foldl_cons, ih]
      have hnow : (s.scheduleInvalidate m first).now = s.now := rfl
      by_cases hrest : key ∈ rest
      · rw [if_pos hrest, if_pos (List.mem_cons_of_mem _ hrest), hnow]
      · rw [if_neg hrest]
        by_cases hfirst : key = first
        · subst hfirst
          rw [if_pos List.mem_cons_self]
          exact Function.update_self ..
        · rw [if_neg (by simp [hfirst, hrest])]
          exact Function.update_of_ne hfirst ..

/-- Opening a source makes nothing stale. -/
theorem openSource_stale (s : Hook) (m : ℕ) : (s.openSource m).stale = s.stale := by
  unfold Hook.openSource
  split <;> rfl

/-- Nor does closing one. -/
theorem closeSource_stale (s : Hook) (m : ℕ) : (s.closeSource m).stale = s.stale := by
  unfold Hook.closeSource
  split <;> rfl

/-- Nor does its failure. -/
theorem onSourceError_stale (s : Hook) (m : ℕ) : (s.onSourceError m).stale = s.stale := by
  unfold Hook.onSourceError
  have hclose := closeSource_stale { s with connected := false } m
  split <;> exact hclose

/-- An event that has led to no invalidation yet still counts, or a later one does. -/
theorem Steady.stale_step {s s' : Hook} {a : HookAction} {key : QueryKey} {time : ℕ} (h : Steady s)
    (hstep : hookStep s a = some s') (hnot : ¬ Invalidates key s a)
    (hstale : s.stale key = some time) :
    ∃ later, time ≤ later ∧ s'.stale key = some later := by
  have hsame (hkept : s'.stale key = s.stale key) : ∃ later, time ≤ later ∧
      s'.stale key = some later :=
    ⟨time, Nat.le_refl _, hkept.trans hstale⟩
  cases a with
  | tick ms => exact hsame (Option.some.inj hstep ▸ rfl)
  | mount =>
      simp only [hookStep] at hstep
      split at hstep
      · cases hstep
      · rw [← Option.some.inj hstep] at hsame ⊢
        exact hsame (congrFun (openSource_stale _ _) key)
  | unmount => exact absurd trivial hnot
  | onopen id =>
      simp only [hookStep] at hstep
      split at hstep
      · exact hsame (Option.some.inj hstep ▸ rfl)
      · cases hstep
  | onerror id =>
      obtain ⟨source, -, rfl⟩ := Option.map_eq_some_iff.mp hstep
      exact hsame (congrFun (onSourceError_stale s source.effect) key)
  | message id event =>
      obtain ⟨source, -, rfl⟩ := Option.map_eq_some_iff.mp hstep
      rw [stale_message] at hsame ⊢
      by_cases hkey : key ∈ eventQueryKeys event
      · obtain ⟨timer, ht, -, hdue⟩ := h.debounced.stale key time hstale
        have hle := h.debounced.due timer ht
        exact ⟨s.now, by omega, if_pos hkey⟩
      · exact hsame (if_neg hkey)
  | reopen id =>
      obtain ⟨timer, -, rfl⟩ := Option.map_eq_some_iff.mp hstep
      exact hsame (congrFun (openSource_stale _ timer.effect) key)
  | refresh id =>
      obtain ⟨timer, hfind, rfl⟩ := Option.map_eq_some_iff.mp hstep
      have hid : timer.id = id := by
        have hmatch := List.find?_some hfind
        simp only [Bool.and_eq_true, beq_iff_eq] at hmatch
        exact hmatch.1
      have hkey : key ≠ timer.key := by
        rintro rfl
        exact hnot ⟨timer, List.mem_of_find?_eq_some hfind, hid, rfl⟩
      exact hsame (Function.update_of_ne hkey ..)
  | visible =>
      simp only [hookStep] at hstep
      split at hstep
      · have hother : key ∉ visibilityRefreshKeys := hnot
        apply hsame
        rw [← Option.some.inj hstep]
        simp [Hook.onVisible, hother]
      · cases hstep
  | authStatus n enabled authenticated =>
      obtain ⟨m, -, rfl⟩ := Option.map_eq_some_iff.mp hstep
      exact hsame rfl

/-- **No event is forgotten, and a burst is one invalidation.**  After an event,
until a query key of it is invalidated or the hook is cleaned up, there is
exactly one timer that will invalidate it, due within 300 ms, and no sooner than
300 ms after the event. -/
theorem serverEvents_refresh {s s' t : Hook} {id : ℕ} {event : EventKind} {key : QueryKey}
    (h : Reachable hookStep {} s) (hevent : hookStep s (.message id event) = some s')
    (hkey : key ∈ eventQueryKeys event)
    (hlater : Reaches hookStep (fun u a => ¬ Invalidates key u a) s' t) :
    ∃ timer ∈ t.refreshes, timer.key = key ∧ s.now + invalidateDebounceMs ≤ timer.due ∧
      timer.due ≤ t.now + invalidateDebounceMs ∧ ∀ other ∈ t.refreshes, other.key = key →
        other = timer := by
  have hsteady := (steady_of_reachable h).step hevent
  have hstart : s'.stale key = some s.now := by
    obtain ⟨source, -, rfl⟩ := Option.map_eq_some_iff.mp hevent
    rw [stale_message, if_pos hkey]
  obtain ⟨hsteady', time, hle, hstale⟩ : Steady t ∧ ∃ time, s.now ≤ time ∧
      t.stale key = some time := by
    induction hlater with
    | refl => exact ⟨hsteady, s.now, Nat.le_refl _, hstart⟩
    | tail _ hnot hnext ih =>
        obtain ⟨hbefore, time, hle, hstale⟩ := ih
        obtain ⟨later, hlater, hstale'⟩ := hbefore.stale_step hnext hnot hstale
        exact ⟨hbefore.step hnext, later, Nat.le_trans hle hlater, hstale'⟩
  obtain ⟨timer, ht, htimer, hdue⟩ := hsteady'.debounced.stale key time hstale
  refine ⟨timer, ht, htimer, by omega, hsteady'.debounced.due timer ht, fun other ho hother => ?_⟩
  exact hsteady'.debounced.eq_of_key_eq ho ht (hother.trans htimer.symm)

/-- Two events in a row: one timer, for the later one. -/
theorem serverEvents_refresh_burst :
    ∃ s s' t, replay hookStep [.mount, .onopen 0] {} = some s ∧
      hookStep s (.message 0 .healthChanged) = some s' ∧
        replay hookStep [.tick 200, .message 0 .healthChanged, .tick 299] s' = some t ∧
          ∃ timer ∈ t.refreshes, timer.key = .healthz ∧ s.now + invalidateDebounceMs ≤ timer.due ∧
            timer.due ≤ t.now + invalidateDebounceMs ∧
              ∀ other ∈ t.refreshes, other.key = .healthz → other = timer := by
  obtain ⟨s, s', t, hrun, hevent, hrest⟩ : ∃ s s' t,
      replay hookStep [.mount, .onopen 0] {} = some s ∧
      hookStep s (.message 0 .healthChanged) = some s' ∧
        replay hookStep [.tick 200, .message 0 .healthChanged, .tick 299] s' = some t :=
    ⟨_, _, _, rfl, rfl, rfl⟩
  refine ⟨s, s', t, hrun, hevent, hrest, ?_⟩
  refine serverEvents_refresh (reachable_of_replay hrun) hevent (by decide)
    (reaches_of_replay ?_ hrest)
  intro a ha u hinvalidates
  simp only [List.mem_cons, List.not_mem_nil, or_false] at ha
  rcases ha with rfl | rfl | rfl <;> exact hinvalidates

end Nebularr
