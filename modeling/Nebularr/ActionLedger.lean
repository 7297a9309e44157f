import Mathlib.Data.List.Perm.Subperm
import Nebularr.AutomationRules
import Nebularr.KeyedTable

/-!
# The action ledger

One row for each item an automation has searched, whichever rule did it: the
key is the item, and a later search overwrites the row.  The cooldown reads
`last_fired_at` of one row; the daily cap counts the rows of the last day.
Times are seconds.
-/

namespace Nebularr

/-- What an item is called in the ledger. -/
structure ItemKey where
  instanceName : String
  entityType : Entity
  sourceId : Int
deriving DecidableEq, Repr

/-- Columns of `app.automation_action_ledger` under `action_type = 'search'`,
the only action that is ever recorded. -/
structure LedgerRow where
  lastFiredAt : Int
  lastAutomationId : Int
  lastRunId : ℕ
deriving DecidableEq, Repr

/-- `app.automation_action_ledger`. -/
abbrev ActionLedger := KeyedTable ItemKey LedgerRow

/-- Seconds of `make_interval(hours => 24)`. -/
def daySeconds : Int := 86400

/-- `upsert_action_ledger`. -/
def upsertActionLedger (key : ItemKey) (fired : LedgerRow) (t : ActionLedger) : ActionLedger :=
  t.upsert key fired fun _ => fired

/-- `_write_ledger`: one upsert for each searched item, in one transaction. -/
def writeLedger (keys : List ItemKey) (fired : LedgerRow) (t : ActionLedger) : ActionLedger :=
  keys.foldl (fun t key => upsertActionLedger key fired t) t

/-- `last_fired_at >= now() - make_interval(hours => :hours)`. -/
def LedgerRow.recent (now : Int) (row : LedgerRow) : Bool := now - daySeconds ≤ row.lastFiredAt

/-- `count_recent_searches`. -/
def countRecentSearches (now : Int) (t : ActionLedger) : ℕ :=
  t.countWhere fun _ row => row.recent now

/-- **What a ledger write leaves.** -/
theorem row_writeLedger {keys : List ItemKey} {fired : LedgerRow} {t : ActionLedger}
    {key : ItemKey} :
    (writeLedger keys fired t).row key = if key ∈ keys then some fired else t.row key := by
  induction keys generalizing t with
  | nil => simp [writeLedger]
  | cons k rest ih =>
      have hstep : writeLedger (k :: rest) fired t =
          writeLedger rest fired (upsertActionLedger k fired t) := rfl
      have hone : (upsertActionLedger k fired t).row key =
          if key = k then some fired else t.row key := by
        rw [upsertActionLedger, KeyedTable.row_upsert]
        cases t.row k <;> rfl
      rw [hstep, ih, hone]
      by_cases hrest : key ∈ rest
      · simp [hrest]
      · by_cases hk : key = k <;> simp [hrest, hk]

theorem writeLedger_nil {fired : LedgerRow} {t : ActionLedger} : writeLedger [] fired t = t := rfl

/-- Different keys with recent rows are counted once each. -/
theorem length_le_countRecentSearches {now : Int} {t : ActionLedger} {keys : List ItemKey}
    (hnodup : keys.Nodup)
    (hrecent : ∀ key ∈ keys, ∃ row, t.row key = some row ∧ now - daySeconds ≤ row.lastFiredAt) :
    keys.length ≤ countRecentSearches now t := by
  have hsub : keys ⊆ (t.selectWhere fun _ row => row.recent now).map Prod.fst := by
    intro key hkey
    obtain ⟨row, hrow, hfired⟩ := hrecent key hkey
    have hmem := KeyedTable.row_eq_some_iff.mp hrow
    refine List.mem_map.mpr ⟨(key, row), ?_, rfl⟩
    refine List.mem_filter.mpr ⟨List.mem_map.mpr ⟨⟨key, row⟩, hmem, rfl⟩, ?_⟩
    exact decide_eq_true hfired
  have hle := (List.subperm_of_subset hnodup hsub).length_le
  rwa [List.length_map] at hle

end Nebularr
