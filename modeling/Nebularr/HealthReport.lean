import Mathlib.Algebra.Order.Field.Rat
import Mathlib.Algebra.Order.Ring.Cast
import Mathlib.Algebra.Order.Ring.Int
import Mathlib.Algebra.Order.Ring.Nat
import Nebularr.AlertNotifier
import Nebularr.DistinctOn
import Nebularr.GroupFold
import Nebularr.GroupedRows
import Nebularr.WebhookQueue

/-!
# What the notifier is shown

Health has four dimensions, each with a state and its reasons, and is the worst of
them.  The loop over the sync states keeps the worst lag of each source and the
sources with an instance that never synced: none of them can hide another
(`health_exact`).
-/

namespace Nebularr

structure HealthSettings where
  alertWebhookQueueWarning : Int
  alertWebhookQueueCritical : Int
  alertSyncLagWarningSeconds : Int
  alertSyncLagCriticalSeconds : Int

/-- `_worse`. -/
def worse (a b : HealthState) : HealthState := if b.severity ≤ a.severity then a else b

/-- A state and its reasons. -/
abbrev Dimension := HealthState × List String

/-- `"warning", reasons` if there are any. -/
def warnIf (reasons : List String) : Dimension :=
  if reasons ≠ [] then (.warning, reasons) else (.ok, [])

/-- `_eval_webhooks`. -/
def evalWebhooks (settings : HealthSettings) (queueBacklog deadLetterCount : ℕ) : Dimension :=
  if settings.alertWebhookQueueCritical ≤ queueBacklog then (.critical, ["webhook_queue_critical"])
  else warnIf ((if settings.alertWebhookQueueWarning ≤ queueBacklog then ["webhook_queue_warning"]
    else []) ++
    if 0 < deadLetterCount then ["webhook_dead_letter"] else [])

/-- A further reason for a warning, if there are sources to name. -/
def Dimension.warnOf (d : Dimension) (code : String) (sources : List String) : Dimension :=
  if sources ≠ [] then (worse d.1 .warning, d.2 ++ [code ++ ":" ++ String.intercalate "," sources])
    else d

/-- `_eval_sync`. -/
def evalSync (settings : HealthSettings) (maxLag : ℚ) (driftSources unknownSources : List String) :
    Dimension :=
  let lagging : Dimension :=
    if settings.alertSyncLagCriticalSeconds ≤ maxLag then (.critical, ["sync_lag_critical"])
    else if settings.alertSyncLagWarningSeconds ≤ maxLag then (.warning, ["sync_lag_warning"])
    else (.ok, [])
  (lagging.warnOf "sync_never_run" unknownSources).warnOf "integrity_drift" driftSources

/-- `s.lower() == "unknown" or s == "" or s == "—"`. -/
def versionUnknown (version : String) : Bool :=
  version.toLower = "unknown" || version = "" || version = "—"

/-- `_eval_integrations`; an empty version is read as `unknown`. -/
def evalIntegrations (sonarr radarr : String) : Dimension :=
  let u := versionUnknown (if sonarr = "" then "unknown" else sonarr)
  let v := versionUnknown (if radarr = "" then "unknown" else radarr)
  if u && v then (.warning, ["arr_versions_unknown"])
  else if u || v then (.warning, ["arr_version_partial"])
  else (.ok, [])

/-- What `_eval_mal` reads of `mal_sync`: the schedulers, and the status of the job
of each type that finished last. -/
structure MalHealth where
  ingestEnabled : Bool
  matcherEnabled : Bool
  taggingEnabled : Bool
  clientConfigured : Bool
  lastFinished : List (String × Option String)

def MalHealth.anyEnabled (mal : MalHealth) : Bool :=
  mal.ingestEnabled || mal.matcherEnabled || mal.taggingEnabled

/-- `str(row.get("status") or "").lower() == "failed"`. -/
def lastFailed (row : String × Option String) : Bool := (row.2.getD "").toLower = "failed"

/-- `_eval_mal`. -/
def evalMal (mal : MalHealth) : Dimension :=
  if ¬ mal.anyEnabled then (.ok, [])
  else if ¬ mal.clientConfigured then (.warning, ["mal_client_not_configured"])
  else warnIf ((mal.lastFinished.filter lastFailed).map fun row =>
    "mal_" ++ row.1 ++ "_last_failed")

/-! ## The lag of each source -/

/-- A row of `app.sync_state`; the times are in seconds. -/
structure SyncStateRow where
  source : Source
  instanceName : String
  lastHistoryTime : Option ℚ := none
  lastSuccessfulIncremental : Option ℚ := none
  lastSuccessfulFullSync : Option ℚ := none

/-- `extract(epoch from (now() - greatest(…)))`: `greatest` is null where all are. -/
def lagSeconds (now : ℚ) (row : SyncStateRow) : Option ℚ :=
  (sqlMax [row.lastHistoryTime, row.lastSuccessfulIncremental, row.lastSuccessfulFullSync]).map
    (now - ·)

structure SyncLags where
  lag : List (Source × ℚ) := []
  unknownSources : List Source := []

/-- One row of the loop. -/
def lagStep (now : ℚ) (lags : SyncLags) (row : SyncStateRow) : SyncLags :=
  match lagSeconds now row with
  | none =>
      if row.source ∈ lags.unknownSources then lags
      else { lags with unknownSources := lags.unknownSources ++ [row.source] }
  | some seconds => { lags with lag := updateKey row.source 0 (max · seconds) lags.lag }

/-- `max(lag.values()) if lag else 0.0`. -/
def SyncLags.maxLag (lags : SyncLags) : ℚ := (lags.lag.map Prod.snd).max?.getD 0

/-! ## The report -/

def Source.text : Source → String
  | sonarr => "sonarr"
  | radarr => "radarr"

def HealthState.text : HealthState → String
  | ok => "ok"
  | warning => "warning"
  | critical => "critical"

/-- What `compute_health_status` reads. -/
structure HealthInput (P K : Type) where
  settings : HealthSettings
  now : ℚ
  queue : QueueTable P K
  syncState : List SyncStateRow
  driftSources : List Source
  sonarrVersion : Option String
  radarrVersion : Option String
  mal : MalHealth

/-- `health_dimensions` and `health_dimension_reasons`. -/
structure HealthReport where
  webhooks : Dimension
  sync : Dimension
  integrations : Dimension
  mal : Dimension

def HealthReport.dimensions (report : HealthReport) : List Dimension :=
  [report.webhooks, report.sync, report.integrations, report.mal]

/-- The worst of the dimensions. -/
def HealthReport.healthState (report : HealthReport) : HealthState :=
  report.dimensions.foldl (fun state d => worse state d.1) .ok

/-- Their reasons, each once. -/
def HealthReport.healthReasons (report : HealthReport) : List String :=
  (report.dimensions.flatMap Prod.snd).foldl (fun all r => if r ∈ all then all else all ++ [r]) []

/-- The entries that the notifier reads. -/
def HealthReport.status (report : HealthReport) : HealthStatus :=
  ⟨some report.healthState.text, report.healthReasons⟩

section Compute

variable {P K : Type}

def queueBacklog (queue : QueueTable P K) : ℕ := queue.countWhere fun _ row => row.status.isOpen

def deadLetterCount (queue : QueueTable P K) : ℕ :=
  queue.countWhere fun _ row => row.status = .deadLetter

/-- `compute_health_status`. -/
def computeHealthStatus (input : HealthInput P K) : HealthReport :=
  let lags := input.syncState.foldl (lagStep input.now) {}
  { webhooks := evalWebhooks input.settings (queueBacklog input.queue) (deadLetterCount input.queue)
    sync := evalSync input.settings lags.maxLag (input.driftSources.map Source.text)
      ((lags.unknownSources.map Source.text).mergeSort fun a b => decide (a ≤ b))
    integrations :=
      evalIntegrations (input.sonarrVersion.getD "unknown") (input.radarrVersion.getD "unknown")
    mal := evalMal input.mal }

end Compute

/-! ## Dimensions -/

section Dimensions

/-- The worse of two states is fine only if both are. -/
theorem worse_eq_ok_iff {a b : HealthState} : worse a b = .ok ↔ a = .ok ∧ b = .ok := by
  cases a <;> cases b <;> decide

/-- The worse of two states is critical as soon as one is. -/
theorem worse_eq_critical_iff {a b : HealthState} :
    worse a b = .critical ↔ a = .critical ∨ b = .critical := by
  cases a <;> cases b <;> decide

/-- A dimension has reasons exactly if it is not `ok`. -/
def Dimension.Sound (d : Dimension) : Prop := d.1 = .ok ↔ d.2 = []

/-- A warning for its reasons is sound. -/
theorem sound_warnIf (reasons : List String) : (warnIf reasons).Sound := by
  unfold warnIf
  split
  next hsome => exact ⟨nofun, fun hnil => absurd hnil hsome⟩
  next => exact ⟨fun _ => rfl, fun _ => rfl⟩

/-- Reasons alone warn; they never make the state critical. -/
theorem warnIf_ne_critical (reasons : List String) : (warnIf reasons).1 ≠ .critical := by
  unfold warnIf
  split <;> exact nofun

/-- Without a reason there is no warning, and with one there is. -/
theorem warnIf_eq_ok_iff {reasons : List String} : (warnIf reasons).1 = .ok ↔ reasons = [] := by
  unfold warnIf
  split
  next hsome => exact ⟨nofun, fun hnil => absurd hnil hsome⟩
  next hnil => exact ⟨fun _ => not_not.mp hnil, fun _ => rfl⟩

variable {d : Dimension} {code : String} {sources : List String}

/-- Another warning keeps a dimension sound. -/
theorem Dimension.Sound.warnOf (h : d.Sound) : (d.warnOf code sources).Sound := by
  unfold Dimension.warnOf
  split
  · refine ⟨fun hok => ?_, fun hnil => absurd hnil (by simp)⟩
    exact absurd (worse_eq_ok_iff.mp hok).2 nofun
  · exact h

/-- A dimension is fine after a warning if it was and the warning names no
source. -/
theorem warnOf_eq_ok_iff : (d.warnOf code sources).1 = .ok ↔ d.1 = .ok ∧ sources = [] := by
  unfold Dimension.warnOf
  split
  next hsome =>
      rw [worse_eq_ok_iff]
      exact ⟨fun h => absurd h.2 nofun, fun h => absurd h.2 hsome⟩
  next hnil => exact ⟨fun h => ⟨h, not_not.mp hnil⟩, fun h => h.1⟩

/-- A warning neither makes a dimension critical nor takes that from it. -/
theorem warnOf_eq_critical_iff : (d.warnOf code sources).1 = .critical ↔ d.1 = .critical := by
  unfold Dimension.warnOf
  split
  · rw [worse_eq_critical_iff]
    exact ⟨fun h => h.resolve_right nofun, Or.inl⟩
  · exact Iff.rfl

/-- The worst of the dimensions is fine if each of them is. -/
theorem foldl_worse_eq_ok_iff (ds : List Dimension) (state : HealthState) :
    ds.foldl (fun state d => worse state d.1) state = .ok ↔ state = .ok ∧ ∀ d ∈ ds, d.1 = .ok := by
  induction ds generalizing state with
  | nil => simp
  | cons d rest ih => rw [List.foldl_cons, ih, worse_eq_ok_iff, List.forall_mem_cons, and_assoc]

/-- The worst of the dimensions is critical if one of them is. -/
theorem foldl_worse_eq_critical_iff (ds : List Dimension) (state : HealthState) :
    ds.foldl (fun state d => worse state d.1) state = .critical ↔
      state = .critical ∨ ∃ d ∈ ds, d.1 = .critical := by
  induction ds generalizing state with
  | nil => simp
  | cons d rest ih =>
      rw [List.foldl_cons, ih, worse_eq_critical_iff, List.exists_mem_cons_iff, or_assoc]

end Dimensions

section Webhooks

variable {settings : HealthSettings} {backlog dead : ℕ}

/-- The queue is critical from its critical length on. -/
theorem evalWebhooks_eq_critical_iff :
    (evalWebhooks settings backlog dead).1 = .critical ↔
      settings.alertWebhookQueueCritical ≤ backlog := by
  unfold evalWebhooks
  split
  next h => exact ⟨fun _ => h, fun _ => rfl⟩
  next h => exact
    ⟨fun hcritical => absurd hcritical (warnIf_ne_critical _), fun hle => absurd hle h⟩

/-- The queue is fine below both lengths and without a dead letter. -/
theorem evalWebhooks_eq_ok_iff : (evalWebhooks settings backlog dead).1 = .ok ↔
    (backlog < settings.alertWebhookQueueWarning ∧ backlog < settings.alertWebhookQueueCritical) ∧
      dead = 0 := by
  unfold evalWebhooks
  split
  next h => exact ⟨nofun, fun hok => absurd hok.1.2 (not_lt.mpr h)⟩
  next h =>
      rw [warnIf_eq_ok_iff, List.append_eq_nil_iff]
      constructor
      · intro hnil
        refine ⟨⟨?_, not_le.mp h⟩, ?_⟩
        · by_contra hwarn
          rw [if_pos (not_lt.mp hwarn)] at hnil
          exact absurd hnil.1 (List.cons_ne_nil _ _)
        · by_contra hdead
          rw [if_pos (Nat.pos_of_ne_zero hdead)] at hnil
          exact absurd hnil.2 (List.cons_ne_nil _ _)
      · intro hok
        rw [if_neg (not_le.mpr hok.1.1), hok.2]
        exact ⟨rfl, rfl⟩

/-- The dimension of the queue is sound. -/
theorem sound_evalWebhooks : (evalWebhooks settings backlog dead).Sound := by
  unfold evalWebhooks
  split
  · exact ⟨nofun, nofun⟩
  · exact sound_warnIf _

end Webhooks

section Sync

variable {settings : HealthSettings} {maxLag : ℚ} {drift unknown : List String}

/-- The syncs are critical from the critical lag on. -/
theorem evalSync_eq_critical_iff :
    (evalSync settings maxLag drift unknown).1 = .critical ↔
      settings.alertSyncLagCriticalSeconds ≤ maxLag := by
  rw [evalSync, warnOf_eq_critical_iff, warnOf_eq_critical_iff]
  split
  next h => exact ⟨fun _ => h, fun _ => rfl⟩
  next h =>
      refine ⟨fun hcritical => ?_, fun hle => absurd hle h⟩
      split at hcritical
      · cases hcritical
      · cases hcritical

/-- The syncs are fine below both lags, with every lag known and no drift. -/
theorem evalSync_eq_ok_iff : (evalSync settings maxLag drift unknown).1 = .ok ↔
    (¬ (settings.alertSyncLagWarningSeconds : ℚ) ≤ maxLag ∧
      ¬ (settings.alertSyncLagCriticalSeconds : ℚ) ≤ maxLag) ∧ unknown = [] ∧ drift = [] := by
  rw [evalSync, warnOf_eq_ok_iff, warnOf_eq_ok_iff, and_assoc]
  refine and_congr ?_ Iff.rfl
  split
  next h => exact ⟨nofun, fun hok => absurd h hok.2⟩
  next h =>
      split
      next hwarn => exact ⟨nofun, fun hok => absurd hwarn hok.1⟩
      next hwarn => exact ⟨fun _ => ⟨hwarn, h⟩, fun _ => rfl⟩

/-- The dimension of the syncs is sound. -/
theorem sound_evalSync : (evalSync settings maxLag drift unknown).Sound := by
  refine Dimension.Sound.warnOf (Dimension.Sound.warnOf ?_)
  split
  · exact ⟨nofun, nofun⟩
  · split
    · exact ⟨nofun, nofun⟩
    · exact ⟨fun _ => rfl, fun _ => rfl⟩

end Sync

/-- **The integrations**: sound, never critical, and fine if both versions are
known. -/
theorem evalIntegrations_spec (sonarr radarr : String) :
    (evalIntegrations sonarr radarr).Sound ∧ (evalIntegrations sonarr radarr).1 ≠ .critical ∧
      ((evalIntegrations sonarr radarr).1 = .ok ↔
        versionUnknown sonarr = false ∧ versionUnknown radarr = false) := by
  have hempty : ∀ version, versionUnknown (if version = "" then "unknown" else version) =
      versionUnknown version := by
    intro version
    split
    next h =>
        rw [h]
        decide +kernel
    next => rfl
  unfold evalIntegrations
  rw [hempty, hempty]
  cases versionUnknown sonarr <;> cases versionUnknown radarr <;> simp [Dimension.Sound]

/-- **MAL**: sound, never critical, and fine if it is off, or configured and
without a job that failed last. -/
theorem evalMal_spec (mal : MalHealth) :
    (evalMal mal).Sound ∧ (evalMal mal).1 ≠ .critical ∧
      ((evalMal mal).1 = .ok ↔ (mal.anyEnabled = true →
        mal.clientConfigured = true ∧ ∀ row ∈ mal.lastFinished, lastFailed row = false)) := by
  unfold evalMal
  cases mal.anyEnabled with
  | false => simp [Dimension.Sound]
  | true =>
      cases mal.clientConfigured with
      | false => simp [Dimension.Sound]
      | true =>
          simp only [not_true_eq_false, if_false]
          refine ⟨sound_warnIf _, warnIf_ne_critical _, ?_⟩
          rw [warnIf_eq_ok_iff, List.map_eq_nil_iff, List.filter_eq_nil_iff]
          simp

/-! ## Lags -/

section Lags

variable {now t : ℚ} {rows : List SyncStateRow}

/-- The lags that are known. -/
def knownLags (now : ℚ) (rows : List SyncStateRow) : List (Source × ℚ) :=
  rows.filterMap fun row => (lagSeconds now row).map (row.source, ·)

/-- The lag kept for a source is the greatest of its known lags. -/
theorem lag_foldl_lagStep : (rows.foldl (lagStep now) {}).lag =
    groupFold Prod.fst (fun _ => 0) (fun r b => max b r.2) (knownLags now rows) := by
  induction rows using List.reverseRecOn with
  | nil => rfl
  | append_singleton rows row ih =>
      rw [List.foldl_append, knownLags, List.filterMap_append]
      cases hlag : lagSeconds now row with
      | none =>
          simp only [List.foldl_cons, List.foldl_nil, lagStep, hlag, List.filterMap_cons,
            Option.map_none,
            List.filterMap_nil, List.append_nil]
          rw [← knownLags, ← ih]
          split <;> rfl
      | some seconds =>
          simp only [List.foldl_cons, List.foldl_nil, lagStep, hlag, List.filterMap_cons,
            Option.map_some,
            List.filterMap_nil]
          rw [← knownLags, groupFold_append_singleton, ← ih]

/-- No source is unknown exactly if every instance has synced. -/
theorem unknownSources_eq_nil_iff : (rows.foldl (lagStep now) {}).unknownSources = [] ↔
    ∀ row ∈ rows, (lagSeconds now row).isSome = true := by
  induction rows using List.reverseRecOn with
  | nil => simp
  | append_singleton rows row ih =>
      rw [List.foldl_append, List.forall_mem_append, ← ih, List.forall_mem_singleton]
      cases hlag : lagSeconds now row with
      | none =>
          simp only [List.foldl_cons, List.foldl_nil, lagStep, hlag]
          constructor
          · intro hnil
            split at hnil
            next hmem =>
                rw [hnil] at hmem
                cases hmem
            next => exact absurd hnil (by simp)
          · intro h
            cases h.2
      | some seconds =>
          simp only [List.foldl_cons, List.foldl_nil, lagStep, hlag]
          exact ⟨fun h => ⟨h, rfl⟩, fun h => h.1⟩

/-- The worst lag of a source is the lag of one of its instances. -/
theorem exists_entry_iff (ht : 0 < t) (lags : List (Source × ℚ)) :
    (∃ entry ∈ groupFold Prod.fst (fun _ => (0 : ℚ)) (fun r b => max b r.2) lags, t ≤ entry.2) ↔
      ∃ r ∈ lags, t ≤ r.2 := by
  constructor
  · intro h
    obtain ⟨entry, hentry, hle⟩ := h
    refine groupFold_induction (P := fun lags _ b => t ≤ b →
      ∃ r ∈ lags, t ≤ r.2) ?_ ?_ ?_ hentry hle
    · intro lags r _ hmax
      rcases le_max_iff.mp hmax with hzero | hr
      · exact absurd hzero (not_le.mpr ht)
      · exact ⟨r, by simp, hr⟩
    · intro lags r b ih hmax
      rcases le_max_iff.mp hmax with hb | hr
      · obtain ⟨r', hr', hle'⟩ := ih hb
        exact ⟨r', List.mem_append_left _ hr', hle'⟩
      · exact ⟨r, by simp, hr⟩
    · intro lags r k b _ ih hb
      obtain ⟨r', hr', hle'⟩ := ih hb
      exact ⟨r', List.mem_append_left _ hr', hle'⟩
  · intro h
    obtain ⟨r, hr, hle⟩ := h
    have hkeys : r.1 ∈
        (groupFold Prod.fst (fun _ => (0 : ℚ)) (fun r b => max b r.2) lags).map Prod.fst :=
      mem_keys_groupFold.mpr ⟨r, hr, rfl⟩
    obtain ⟨entry, hentry, hkey⟩ := List.mem_map.mp hkeys
    refine ⟨entry, hentry, le_trans hle ?_⟩
    refine groupFold_induction (P := fun lags k b => ∀ r ∈ lags, r.1 = k → r.2 ≤ b) ?_ ?_ ?_
      hentry r hr hkey.symm
    · intro lags r hnew r' hr' hkey'
      rcases List.mem_append.mp hr' with hold | hlast
      · exact absurd hkey' (hnew r' hold)
      · rw [List.mem_singleton.mp hlast]
        exact le_max_right _ _
    · intro lags r b ih r' hr' hkey'
      rcases List.mem_append.mp hr' with hold | hlast
      · exact le_trans (ih r' hold hkey') (le_max_left _ _)
      · rw [List.mem_singleton.mp hlast]
        exact le_max_right _ _
    · intro lags r k b hne ih r' hr' hkey'
      rcases List.mem_append.mp hr' with hold | hlast
      · exact ih r' hold hkey'
      · rw [List.mem_singleton.mp hlast] at hkey'
        exact absurd hkey'.symm hne

/-- A fold of maxima reaches a bound if one of its members does. -/
theorem le_foldl_max_iff (x : ℚ) (rest : List ℚ) :
    t ≤ rest.foldl max x ↔ t ≤ x ∨ ∃ y ∈ rest, t ≤ y := by
  induction rest generalizing x with
  | nil => simp
  | cons y rest ih => rw [List.foldl_cons, ih, le_max_iff, List.exists_mem_cons_iff, or_assoc]

/-- The greatest member, 0 if there is none, reaches a positive bound if some
member does. -/
theorem le_max?_iff (ht : 0 < t) (l : List ℚ) : t ≤ l.max?.getD 0 ↔ ∃ x ∈ l, t ≤ x := by
  cases l with
  | nil => simpa using ht
  | cons x rest =>
      rw [List.max?_cons', Option.getD_some, le_foldl_max_iff, List.exists_mem_cons_iff]

/-- The lag of a report is never negative. -/
theorem maxLag_nonneg (now : ℚ) (rows : List SyncStateRow) :
    0 ≤ (rows.foldl (lagStep now) {}).maxLag := by
  unfold SyncLags.maxLag
  rw [lag_foldl_lagStep]
  cases hmax : (List.map Prod.snd (groupFold Prod.fst (fun _ => (0 : ℚ)) (fun r b => max b r.2)
      (knownLags now rows))).max? with
  | none => exact le_refl 0
  | some worst =>
      obtain ⟨entry, hentry, rfl⟩ := List.mem_map.mp (List.max?_mem hmax)
      refine groupFold_induction (P := fun _ _ b => (0 : ℚ) ≤ b) ?_ ?_ ?_ hentry
      · exact fun _ _ _ => le_max_left _ _
      · exact fun _ _ _ hb => le_trans hb (le_max_left _ _)
      · exact fun _ _ _ _ _ hb => hb

/-- **No lag hides behind another.** -/
theorem le_maxLag_iff : t ≤ (rows.foldl (lagStep now) {}).maxLag ↔
    t ≤ 0 ∨ ∃ row ∈ rows, ∃ seconds, lagSeconds now row = some seconds ∧ t ≤ seconds := by
  rcases le_or_gt t 0 with hneg | ht
  · exact ⟨fun _ => Or.inl hneg, fun _ => le_trans hneg (maxLag_nonneg now rows)⟩
  · rw [SyncLags.maxLag, lag_foldl_lagStep, le_max?_iff ht, or_iff_right (not_le.mpr ht)]
    have hentry := exists_entry_iff ht (knownLags now rows)
    simp only [List.mem_map, exists_exists_and_eq_and]
    rw [hentry]
    simp only [knownLags, List.mem_filterMap, Option.map_eq_some_iff]
    constructor
    · intro h
      obtain ⟨-, ⟨row, hrow, seconds, hlag, rfl⟩, hle⟩ := h
      exact ⟨row, hrow, seconds, hlag, hle⟩
    · intro h
      obtain ⟨row, hrow, seconds, hlag, hle⟩ := h
      exact ⟨(row.source, seconds), ⟨row, hrow, seconds, hlag, rfl⟩, hle⟩

end Lags

/-! ## The whole report -/

section Report

variable {report : HealthReport} {reason : String}

/-- What holds of every dimension holds of each of the four. -/
theorem forall_dimensions_iff {p : Dimension → Prop} : (∀ d ∈ report.dimensions, p d) ↔
    p report.webhooks ∧ p report.sync ∧ p report.integrations ∧ p report.mal := by
  simp [HealthReport.dimensions]

/-- What holds of some dimension holds of one of the four. -/
theorem exists_dimensions_iff {p : Dimension → Prop} : (∃ d ∈ report.dimensions, p d) ↔
    p report.webhooks ∨ p report.sync ∨ p report.integrations ∨ p report.mal := by
  simp [HealthReport.dimensions]

/-- The reasons of a report are those of its dimensions, each where it stands
first. -/
theorem healthReasons_eq (report : HealthReport) :
    report.healthReasons = distinctOn id (report.dimensions.flatMap Prod.snd) := by
  have hloop : (report.dimensions.flatMap Prod.snd).foldl
      (fun all r => if id r ∈ all.map id then all else all ++ [r]) [] = [] ++
        unseen id ([].map id) _ :=
    foldl_append_new _ _
  simp only [List.map_id, id_eq] at hloop
  rw [HealthReport.healthReasons, hloop]
  exact unseen_of_none id _

/-- No reason is given twice. -/
theorem nodup_healthReasons (report : HealthReport) : report.healthReasons.Nodup := by
  have hnodup := nodup_map_distinctOn id (report.dimensions.flatMap Prod.snd)
  rwa [List.map_id, ← healthReasons_eq] at hnodup

/-- A reason is given if a dimension has it. -/
theorem mem_healthReasons_iff :
    reason ∈ report.healthReasons ↔ ∃ d ∈ report.dimensions, reason ∈ d.2 := by
  rw [healthReasons_eq, mem_distinctOn_of_injective Function.injective_id, List.mem_flatMap]

/-- A report gives no reason if no dimension has one. -/
theorem healthReasons_eq_nil_iff :
    report.healthReasons = [] ↔ ∀ d ∈ report.dimensions, d.2 = [] := by
  simp only [List.eq_nil_iff_forall_not_mem, mem_healthReasons_iff, not_exists, not_and]
  constructor
  · exact fun h d hd reason hreason => h reason d hd hreason
  · exact fun h reason d hd hreason => h d hd reason hreason

/-- The notifier reads the state that was written. -/
theorem evaluation_status (report : HealthReport) :
    report.status.evaluation.state = report.healthState := by
  have hlower : ∀ state : HealthState, state.text.toLower = state.text := by
    intro state
    cases state <;> decide +kernel
  simp only [HealthStatus.evaluation, HealthReport.status, Option.getD_some, hlower]
  cases report.healthState <;> rfl

end Report

/-- Nothing is amiss. -/
structure HealthInput.Healthy {P K : Type} (input : HealthInput P K) : Prop where
  queueShort : (queueBacklog input.queue : Int) < input.settings.alertWebhookQueueWarning ∧
    (queueBacklog input.queue : Int) < input.settings.alertWebhookQueueCritical
  noDeadLetter : deadLetterCount input.queue = 0
  /-- Else no lag at all is too much. -/
  thresholds : 0 < input.settings.alertSyncLagWarningSeconds ∧
    0 < input.settings.alertSyncLagCriticalSeconds
  synced : ∀ row ∈ input.syncState, ∃ seconds, lagSeconds input.now row = some seconds ∧
    seconds < input.settings.alertSyncLagWarningSeconds ∧
      seconds < input.settings.alertSyncLagCriticalSeconds
  noDrift : input.driftSources = []
  versions : versionUnknown (input.sonarrVersion.getD "unknown") = false ∧
    versionUnknown (input.radarrVersion.getD "unknown") = false
  mal : input.mal.anyEnabled = true →
    input.mal.clientConfigured = true ∧ ∀ row ∈ input.mal.lastFinished, lastFailed row = false

section Exact

variable {P K : Type} {input : HealthInput P K}

/-- Every dimension of a report is sound. -/
theorem sound_computeHealthStatus : ∀ d ∈ (computeHealthStatus input).dimensions, d.Sound :=
  forall_dimensions_iff.mpr
    ⟨sound_evalWebhooks, sound_evalSync, (evalIntegrations_spec _ _).1, (evalMal_spec _).1⟩

/-- **When a report is critical**: the backlog has its critical length, or a
known lag the critical one; a critical lag of 0 is always reached. -/
theorem healthState_eq_critical_iff : (computeHealthStatus input).healthState = .critical ↔
    input.settings.alertWebhookQueueCritical ≤ queueBacklog input.queue ∨
      input.settings.alertSyncLagCriticalSeconds ≤ 0 ∨
        ∃ row ∈ input.syncState, ∃ seconds, lagSeconds input.now row = some seconds ∧
          input.settings.alertSyncLagCriticalSeconds ≤ seconds := by
  rw [HealthReport.healthState, foldl_worse_eq_critical_iff, or_iff_right (by decide),
    exists_dimensions_iff]
  simp only [computeHealthStatus, evalWebhooks_eq_critical_iff, evalSync_eq_critical_iff,
    (evalIntegrations_spec _ _).2.1, (evalMal_spec _).2.1, or_false, le_maxLag_iff]
  rw [Int.cast_nonpos]

/-- No instance lags behind by a limit. -/
theorem not_le_maxLag_iff {limit : Int} {now : ℚ} {rows : List SyncStateRow} :
    ¬ (limit : ℚ) ≤ (rows.foldl (lagStep now) {}).maxLag ↔
      0 < limit ∧ ∀ row ∈ rows, ∀ seconds, lagSeconds now row = some seconds → seconds < limit := by
  rw [le_maxLag_iff, not_or, Int.cast_nonpos, not_le]
  simp only [not_exists, not_and, not_le]

/-- **When a report is fine.** -/
theorem healthState_eq_ok_iff : (computeHealthStatus input).healthState = .ok ↔ input.Healthy := by
  have hsorted : ∀ sources : List Source,
      (sources.map Source.text).mergeSort (fun a b => decide (a ≤ b)) = [] ↔ sources = [] := by
    intro sources
    rw [← List.length_eq_zero_iff, (List.mergeSort_perm _ _).length_eq, List.length_map,
      List.length_eq_zero_iff]
  rw [HealthReport.healthState, foldl_worse_eq_ok_iff, forall_dimensions_iff]
  simp only [computeHealthStatus, evalWebhooks_eq_ok_iff, evalSync_eq_ok_iff,
    (evalIntegrations_spec _ _).2.2, (evalMal_spec _).2.2, not_le_maxLag_iff, hsorted,
    unknownSources_eq_nil_iff, List.map_eq_nil_iff]
  constructor
  · intro h
    obtain ⟨-, ⟨hqueue, hdead⟩, ⟨⟨⟨hwarn, hwarns⟩, hcritical, hcriticals⟩, hknown, hdrift⟩,
        hversions,
      hmal⟩ := h
    refine ⟨hqueue, hdead, ⟨hwarn, hcritical⟩, fun row hrow => ?_, hdrift, hversions, hmal⟩
    obtain ⟨seconds, hseconds⟩ := Option.isSome_iff_exists.mp (hknown row hrow)
    exact ⟨seconds, hseconds, hwarns row hrow seconds hseconds,
      hcriticals row hrow seconds hseconds⟩
  · intro h
    refine ⟨trivial, ⟨h.queueShort, h.noDeadLetter⟩,
      ⟨⟨⟨h.thresholds.1, fun row hrow seconds hlag => ?_⟩,
      h.thresholds.2, fun row hrow seconds hlag => ?_⟩, fun row hrow => ?_, h.noDrift⟩, h.versions,
        h.mal⟩
    · obtain ⟨seconds', hlag', hwarn, -⟩ := h.synced row hrow
      rw [hlag] at hlag'
      rwa [Option.some.inj hlag']
    · obtain ⟨seconds', hlag', -, hcritical⟩ := h.synced row hrow
      rw [hlag] at hlag'
      rwa [Option.some.inj hlag']
    · obtain ⟨seconds, hlag, -⟩ := h.synced row hrow
      rw [hlag]
      rfl

end Exact

/-- **Health is what it says.**  It is critical exactly if the queue is as long as
that or some instance lags as far behind; it is ok exactly if nothing is amiss with
the queue, with any instance, the versions or the MAL jobs, and exactly then there
is no reason; the reasons are those of the dimensions, each once; and the notifier
reads the same state. -/
theorem health_exact {P K : Type} (input : HealthInput P K) :
    ((computeHealthStatus input).healthState = .critical ↔
      input.settings.alertWebhookQueueCritical ≤ queueBacklog input.queue ∨
        input.settings.alertSyncLagCriticalSeconds ≤ 0 ∨
          ∃ row ∈ input.syncState, ∃ seconds, lagSeconds input.now row = some seconds ∧
            input.settings.alertSyncLagCriticalSeconds ≤ seconds) ∧
      ((computeHealthStatus input).healthState = .ok ↔ input.Healthy) ∧
      ((computeHealthStatus input).healthState = .ok ↔
        (computeHealthStatus input).healthReasons = []) ∧
      (computeHealthStatus input).healthReasons.Nodup ∧
      (∀ reason, reason ∈ (computeHealthStatus input).healthReasons ↔
        ∃ d ∈ (computeHealthStatus input).dimensions, reason ∈ d.2) ∧
      (computeHealthStatus input).status.evaluation.state =
        (computeHealthStatus input).healthState := by
  refine ⟨healthState_eq_critical_iff, healthState_eq_ok_iff, ?_, nodup_healthReasons _,
    fun reason => mem_healthReasons_iff, evaluation_status _⟩
  rw [HealthReport.healthState, foldl_worse_eq_ok_iff, healthReasons_eq_nil_iff]
  constructor
  · intro h d hd
    exact (sound_computeHealthStatus d hd).mp (h.2 d hd)
  · intro h
    exact ⟨rfl, fun d hd => (sound_computeHealthStatus d hd).mpr (h d hd)⟩

end Nebularr
