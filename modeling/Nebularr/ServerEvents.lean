import Mathlib.Algebra.Order.Ring.Nat
import Mathlib.Data.List.Nodup
import Nebularr.Transitions

/-!
# The page's end of the event stream

`useServerEvents`: an effect that keeps an `EventSource` open, tries again ever
later after errors, and turns events into invalidations of queries, those of a
burst into one.  The effect may be cleaned up and run again; the closures of an
old one are still there, and only `disposed`, closed sources and cleared timers
keep them quiet.

`Connection` is what the sources and the reconnect timers can look like.
-/

namespace Nebularr

/-! ## Events and query keys -/

inductive EventKind
  | syncProgress | syncFinished | webhookDeadLetter | webhookProcessed | healthChanged
deriving DecidableEq, Repr

/-- The members of `queryKeys` that the hook names, those with parameters as their
bare prefix. -/
inductive QueryKey
  | status | healthz | runs | recentRuns | syncActivity | syncProgress | workStatus | webhookQueue
  | webhookJobs | shows | allEpisodes | movies | showSeasons | showEpisodes
deriving DecidableEq, Repr

def QueryKey.all : List QueryKey :=
  [.status, .healthz, .runs, .recentRuns, .syncActivity, .syncProgress, .workStatus, .webhookQueue,
    .webhookJobs, .shows, .allEpisodes, .movies, .showSeasons, .showEpisodes]

theorem QueryKey.mem_all (key : QueryKey) : key ∈ QueryKey.all := by cases key <;> decide

/-- `EVENT_QUERY_KEYS`. -/
def eventQueryKeys : EventKind → List QueryKey
  | .syncProgress => [.syncProgress, .workStatus]
  | .syncFinished =>
      [.syncProgress, .workStatus, .runs, .recentRuns, .syncActivity, .status, .shows, .allEpisodes,
        .movies, .showSeasons, .showEpisodes]
  | .webhookDeadLetter => [.webhookQueue, .webhookJobs, .status]
  | .webhookProcessed =>
      [.webhookQueue, .webhookJobs, .status, .syncActivity, .shows, .allEpisodes, .movies,
        .showEpisodes,
        .showSeasons]
  | .healthChanged => [.status, .healthz]

/-- `VISIBILITY_REFRESH_KEYS`. -/
def visibilityRefreshKeys : List QueryKey := [.status, .healthz, .workStatus, .syncProgress]

def reconnectDelayMs (consecutiveFailures : ℕ) : ℕ :=
  min (5000 * 2 ^ (max 1 consecutiveFailures - 1)) 60000

/-- `AUTH_PROBE_AFTER_FAILURES`. -/
def authProbeAfterFailures : ℕ := 3

/-- `INVALIDATE_DEBOUNCE_MS`. -/
def invalidateDebounceMs : ℕ := 300

/-! ## The hook -/

/-- An `EventSource` that is not closed, of the `effect`-th run of the effect. -/
structure EventSource where
  id : ℕ
  effect : ℕ
  opened : Bool
deriving DecidableEq

/-- A pending `setTimeout(open, …)`. -/
structure ReopenTimer where
  id : ℕ
  effect : ℕ
  due : ℕ
deriving DecidableEq

/-- A pending timer of `scheduleInvalidate`. -/
structure RefreshTimer where
  id : ℕ
  effect : ℕ
  key : QueryKey
  due : ℕ
deriving DecidableEq

/-- The variables of a run of the effect. -/
structure Effect where
  disposed : Bool := true
  source : Option ℕ := none
  debounceTimers : QueryKey → Option ℕ := fun _ => none

/-- The hook, with the sources and timers of the browser.  `current` is the last
effect that ran; one that has not run counts as disposed.  `stale` has the time
of the last event for a key since the key was invalidated. -/
structure Hook where
  now : ℕ := 0
  fresh : ℕ := 0
  sources : List EventSource := []
  reopens : List ReopenTimer := []
  refreshes : List RefreshTimer := []
  effects : ℕ → Effect := fun _ => {}
  current : ℕ := 0
  failures : ℕ := 0
  reconnectTimer : Option ℕ := none
  connected : Bool := false
  probes : List ℕ := []
  signInAsked : Bool := false
  stale : QueryKey → Option ℕ := fun _ => none

inductive HookAction
  | tick (ms : ℕ)
  | mount
  | unmount
  | onopen (id : ℕ)
  | onerror (id : ℕ)
  | message (id : ℕ) (event : EventKind)
  | reopen (id : ℕ)
  | refresh (id : ℕ)
  | visible
  /-- The `n`-th probe is answered. -/
  | authStatus (n : ℕ) (enabled authenticated : Bool)
deriving DecidableEq

namespace Hook

def mounted (s : Hook) : Bool := !(s.effects s.current).disposed

/-- `source?.close()`, of the `m`-th effect. -/
def closeSource (s : Hook) (m : ℕ) : Hook :=
  match (s.effects m).source with
  | none => s
  | some id => { s with sources := s.sources.filter (·.id != id) }

/-- `source = …`. -/
def setSource (s : Hook) (m : ℕ) (source : Option ℕ) : Hook :=
  { s with effects := Function.update s.effects m { s.effects m with source := source } }

/-- `if (reconnectTimer.current) clearTimeout(reconnectTimer.current)`; no handle is
given out twice. -/
def clearReconnect (s : Hook) : Hook :=
  match s.reconnectTimer with
  | none => s
  | some id => { s with reopens := s.reopens.filter (·.id != id) }

/-- `open`. -/
def openSource (s : Hook) (m : ℕ) : Hook :=
  if (s.effects m).disposed then s
  else
    { s.setSource m (some s.fresh) with
      sources := ⟨s.fresh, m, false⟩ :: s.sources
      fresh := s.fresh + 1 }

/-- `source.onerror`. -/
def onSourceError (s : Hook) (m : ℕ) : Hook :=
  let closed := ({ s with connected := false }.closeSource m).setSource m none
  if (s.effects m).disposed then closed
  else
    { closed with
      failures := s.failures + 1
      probes := if s.failures + 1 = authProbeAfterFailures then m :: s.probes else s.probes
      reopens := ⟨s.fresh, m, s.now + reconnectDelayMs (s.failures + 1)⟩ :: s.reopens
      reconnectTimer := some s.fresh
      fresh := s.fresh + 1 }

/-- `if (existing) clearTimeout(existing)`, for a key. -/
def withoutTimer (s : Hook) (m : ℕ) (key : QueryKey) : List RefreshTimer :=
  match (s.effects m).debounceTimers key with
  | none => s.refreshes
  | some id => s.refreshes.filter (·.id != id)

def scheduleInvalidate (s : Hook) (m : ℕ) (key : QueryKey) : Hook :=
  { s with
    refreshes := ⟨s.fresh, m, key, s.now + invalidateDebounceMs⟩ :: s.withoutTimer m key
    effects := Function.update s.effects m
      { s.effects m
        with debounceTimers := Function.update (s.effects m).debounceTimers key (some s.fresh) }
    fresh := s.fresh + 1
    stale := Function.update s.stale key (some s.now) }

/-- The timer of `scheduleInvalidate`. -/
def fireRefresh (s : Hook) (timer : RefreshTimer) : Hook :=
  { s with
    refreshes := s.refreshes.filter (·.id != timer.id)
    effects := Function.update s.effects timer.effect
      { s.effects timer.effect with
        debounceTimers := Function.update (s.effects timer.effect).debounceTimers timer.key none }
    stale := Function.update s.stale timer.key none }

def reconnectNow (s : Hook) (m : ℕ) : Hook :=
  let cleared := { s.clearReconnect with failures := 0, reconnectTimer := none }
  ((cleared.closeSource m).setSource m none).openSource m

/-- `onVisibilityChange`, with the tab visible. -/
def onVisible (s : Hook) (m : ℕ) : Hook :=
  { s.reconnectNow m with
    stale := fun key => if visibilityRefreshKeys.contains key then none else s.stale key }

/-- What the effect returns.  A page that is gone has nothing to refresh. -/
def cleanup (s : Hook) (m : ℕ) : Hook :=
  let closed := s.clearReconnect.closeSource m
  { closed with
    effects := Function.update s.effects m
      { s.effects m with disposed := true, debounceTimers := fun _ => none }
    refreshes := s.refreshes.filter fun timer =>
      !QueryKey.all.any fun key => decide ((s.effects m).debounceTimers key = some timer.id)
    connected := false
    stale := fun _ => none }

end Hook

/-- One event; `none` where it cannot happen. -/
def hookStep (s : Hook) : HookAction → Option Hook
  | .tick ms => some { s with now := s.now + ms }
  | .mount =>
      if s.mounted then none
      else
        some ({ s with
          effects := Function.update s.effects (s.current + 1) { disposed := false }
          current := s.current + 1 }.openSource (s.current + 1))
  | .unmount => if s.mounted then some (s.cleanup s.current) else none
  | .onopen id =>
      if s.sources.any fun source => source.id == id && !source.opened then
        some { s with
          sources := s.sources.map fun source => if source.id = id then
            { source with opened := true } else source
          failures := 0
          connected := true }
      else none
  | .onerror id => (s.sources.find? (·.id == id)).map fun source => s.onSourceError source.effect
  | .message id event =>
      (s.sources.find? fun source => source.id == id && source.opened).map fun source =>
        (eventQueryKeys event).foldl (fun s key => s.scheduleInvalidate source.effect key) s
  | .reopen id =>
      (s.reopens.find? fun timer => timer.id == id && decide (timer.due ≤ s.now)).map fun timer =>
        { s with reopens := s.reopens.filter (·.id != id) }.openSource timer.effect
  | .refresh id =>
      (s.refreshes.find? fun timer => timer.id == id && decide (timer.due ≤ s.now)).map fun timer =>
        s.fireRefresh timer
  -- `cleanup` removes the listener.
  | .visible => if s.mounted then some (s.onVisible s.current) else none
  | .authStatus n enabled authenticated =>
      (s.probes[n]?).map fun m =>
        { s with
          probes := s.probes.eraseIdx n
          signInAsked := s.signInAsked || (!(s.effects m).disposed && enabled && !authenticated) }

/-! ## The connection -/

/-- One source, or one timer for the next, or neither and nothing else either. -/
inductive Connection (s : Hook) : Prop
  | gone (hmounted : s.mounted = false) (hsources : s.sources = []) (hreopens : s.reopens = [])
      (hrefreshes : s.refreshes = []) (hconnected : s.connected = false)
  | streaming (id : ℕ) (opened : Bool) (hmounted : s.mounted = true)
      (hsources : s.sources = [⟨id, s.current, opened⟩])
        (hsource : (s.effects s.current).source = some id)
      (hreopens : s.reopens = [])
  | waiting (timer : ReopenTimer) (armed : ℕ) (hmounted : s.mounted = true)
    (hsources : s.sources = [])
      (hsource : (s.effects s.current).source = none) (hreopens : s.reopens = [timer])
      (howner : timer.effect = s.current) (href : s.reconnectTimer = some timer.id)
        (harmed : armed ≤ s.now)
      (hdue : timer.due = armed + reconnectDelayMs s.failures) (hconnected : s.connected = false)

namespace Connection

variable {s : Hook}

theorem disposed_of_mounted (h : s.mounted = true) : (s.effects s.current).disposed = false := by
  simpa [Hook.mounted] using h

/-- Where there is a source it is the one of the effect that is mounted. -/
theorem source_of_mem (h : Connection s) {source : EventSource} (hmem : source ∈ s.sources) :
    s.mounted = true ∧ s.sources = [source] ∧ source.effect = s.current ∧
      (s.effects s.current).source = some source.id ∧ s.reopens = [] := by
  cases h with
  | gone _ hsources => simp [hsources] at hmem
  | streaming id opened hmounted hsources hsource hreopens =>
      rw [hsources, List.mem_singleton] at hmem
      subst hmem
      exact ⟨hmounted, hsources, rfl, hsource, hreopens⟩
  | waiting timer armed _ hsources => simp [hsources] at hmem

/-- Where a timer is pending there is no source. -/
theorem timer_of_mem (h : Connection s) {timer : ReopenTimer} (hmem : timer ∈ s.reopens) :
    s.mounted = true ∧ s.sources = [] ∧ s.reopens = [timer] ∧ timer.effect = s.current := by
  cases h with
  | gone _ _ hreopens => simp [hreopens] at hmem
  | streaming id opened _ _ _ hreopens => simp [hreopens] at hmem
  | waiting other armed hmounted hsources _ hreopens howner =>
      rw [hreopens, List.mem_singleton] at hmem
      subst hmem
      exact ⟨hmounted, hsources, hreopens, howner⟩

/-- Opening the only source. -/
theorem openSource {m : ℕ} (hcurrent : m = s.current) (hmounted : s.mounted = true)
    (hsources : s.sources = []) (hreopens : s.reopens = []) : Connection (s.openSource m) := by
  subst hcurrent
  have hdisposed := disposed_of_mounted hmounted
  unfold Hook.openSource
  rw [if_neg (by simp [hdisposed])]
  refine .streaming s.fresh false ?_ ?_ ?_ hreopens
  · simp [Hook.mounted, Hook.setSource, hdisposed]
  · simp [hsources, Hook.setSource]
  · simp [Hook.setSource]

theorem source_eq_of_mem (h : Connection s) : ∀ source ∈ s.sources,
    (s.effects s.current).source = some source.id :=
  fun _ hmem => (h.source_of_mem hmem).2.2.2.1

theorem reconnectTimer_eq_of_mem (h : Connection s) : ∀ timer ∈ s.reopens,
    s.reconnectTimer = some timer.id := by
  intro timer hmem
  cases h with
  | gone _ _ hreopens => simp [hreopens] at hmem
  | streaming id opened _ _ _ hreopens => simp [hreopens] at hmem
  | waiting other armed _ _ _ hreopens _ href =>
      rw [hreopens, List.mem_singleton] at hmem
      rw [href, hmem]

end Connection

/-- Closing the source leaves none, if it is the one there is. -/
theorem Hook.closeSource_eq {s : Hook} {m : ℕ}
    (hall : ∀ source ∈ s.sources, (s.effects m).source = some source.id) :
    s.closeSource m = { s with sources := [] } := by
  unfold Hook.closeSource
  cases hsource : (s.effects m).source with
  | none =>
      have hnone : s.sources = [] := by
        apply List.eq_nil_iff_forall_not_mem.mpr
        intro source hmem
        rw [hall source hmem] at hsource
        cases hsource
      rw [← hnone]
  | some id =>
      have hnone : s.sources.filter (·.id != id) = [] := by
        apply List.filter_eq_nil_iff.mpr
        intro source hmem
        have hid : some source.id = some id := (hall source hmem).symm.trans hsource
        simpa using hid
      rw [← hnone]

/-- Clearing the timer leaves none, if it is the one there is. -/
theorem Hook.clearReconnect_eq {s : Hook}
    (hall : ∀ timer ∈ s.reopens, s.reconnectTimer = some timer.id) :
    s.clearReconnect = { s with reopens := [] } := by
  unfold Hook.clearReconnect
  split
  next href =>
      have hnone : s.reopens = [] := by
        apply List.eq_nil_iff_forall_not_mem.mpr
        intro timer hmem
        rw [hall timer hmem] at href
        cases href
      rw [← hnone]
  next id href =>
      have hnone : s.reopens.filter (·.id != id) = [] := by
        apply List.filter_eq_nil_iff.mpr
        intro timer hmem
        have hid : some timer.id = some id := (hall timer hmem).symm.trans href
        simpa using hid
      rw [← hnone]

namespace Connection

variable {s : Hook}

/-- An error closes its own source and sets the timer. -/
theorem onSourceError (h : Connection s) {source : EventSource} (hmem : source ∈ s.sources) :
    Connection (s.onSourceError source.effect) := by
  obtain ⟨hmounted, -, howner, -, hreopens⟩ := h.source_of_mem hmem
  have hdisposed := disposed_of_mounted hmounted
  have hclose : ({ s with connected := false } : Hook).closeSource s.current =
      { s with connected := false, sources := [] } := Hook.closeSource_eq h.source_eq_of_mem
  unfold Hook.onSourceError
  rw [howner, if_neg (by simp [hdisposed]), hclose]
  refine .waiting
    ⟨s.fresh, s.current, s.now + reconnectDelayMs (s.failures + 1)⟩ s.now ?_ rfl ?_ ?_ rfl rfl
    (Nat.le_refl _) rfl rfl
  · simp [Hook.mounted, Hook.setSource, hdisposed]
  · simp [Hook.setSource]
  · simp [hreopens]

theorem reconnectNow_eq (h : Connection s) : s.reconnectNow s.current =
    (({ s with reopens := [], failures := 0, reconnectTimer := none, sources := [] } :
      Hook).setSource
      s.current none).openSource s.current := by
  have hclose :
      ({ s with reopens := [], failures := 0, reconnectTimer := none } : Hook).closeSource
        s.current =
      { s with reopens := [], failures := 0, reconnectTimer := none, sources := [] } :=
    Hook.closeSource_eq h.source_eq_of_mem
  unfold Hook.reconnectNow
  rw [Hook.clearReconnect_eq h.reconnectTimer_eq_of_mem]
  dsimp only
  rw [hclose]

theorem reconnectNow (h : Connection s) (hmounted : s.mounted = true) :
    Connection (s.reconnectNow s.current) := by
  rw [h.reconnectNow_eq]
  refine openSource rfl ?_ rfl rfl
  simpa [Hook.mounted, Hook.setSource] using hmounted

theorem cleanup_eq (h : Connection s) : s.clearReconnect.closeSource s.current =
    { s with reopens := [], sources := [] } := by
  rw [Hook.clearReconnect_eq h.reconnectTimer_eq_of_mem]
  exact Hook.closeSource_eq h.source_eq_of_mem

end Connection

end Nebularr
