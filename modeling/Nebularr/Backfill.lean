import Nebularr.Matcher

/-!
# The backfill of external ids

`backfill_external_ids_from_links` selects `distinct` rows, not
`distinct on (mal_id, site)`.  An anime that is linked in two instances to
items with different ids is proposed twice, the upsert raises, and the whole
run is rolled back with the links it had built.  It happens exactly when the
ids of the linked items disagree.
-/

namespace Nebularr

section Backfill

variable (input : MatcherInput) (links : WarehouseLinks)

/-- The anime is linked to a live item that carries this id, once trimmed. -/
def LinkedId (site : ExternalSite) (malId : Int) (id : String) : Prop :=
  ∃ key link text, links.row key = some link ∧ key.malId = malId ∧
    key.arrEntity = siteEntity site ∧
    (⟨link.warehouseSourceId, key.instanceName⟩, text) ∈ siteIds input.warehouse site ∧
    sqlTrim text = id

/-- All the items that a dubbed anime is linked to carry the same id of a
site, as far as they carry one. -/
def LinkedIdsAgree : Prop :=
  ∀ site malId, input.isDubbed malId = true → ∀ id id', LinkedId input links site malId id →
    LinkedId input links site malId id' → id = id'

variable {input links}

/-- What the statement for a site proposes. -/
theorem mem_backfillRows {site : ExternalSite} {k : Int × ExternalSite} {id : String} :
    (k, id) ∈ backfillRows input links site ↔
      k.2 = site ∧ input.isDubbed k.1 = true ∧ LinkedId input links site k.1 id := by
  unfold backfillRows LinkedId
  rw [List.mem_dedup, List.mem_flatMap]
  constructor
  · rintro ⟨⟨key, link⟩, hlink, hrow⟩
    split at hrow
    · next hcond =>
        obtain ⟨⟨item, text⟩, hitem, hsome⟩ := List.mem_filterMap.mp hrow
        split at hsome
        · next hkey =>
            obtain ⟨rfl, rfl⟩ := Prod.mk.inj (Option.some.inj hsome)
            exact ⟨rfl, hcond.1, key, link, text, KeyedTable.row_eq_some_iff.mpr hlink, rfl,
              hcond.2, hkey ▸ hitem, rfl⟩
        · cases hsome
    · cases hrow
  · rintro ⟨hsite, hdub, key, link, text, hlink, hmal, hentity, hitem, htext⟩
    refine ⟨⟨key, link⟩, KeyedTable.row_eq_some_iff.mp hlink, ?_⟩
    rw [if_pos ⟨hmal ▸ hdub, hentity⟩, List.mem_filterMap]
    refine ⟨(⟨link.warehouseSourceId, key.instanceName⟩, text), hitem, ?_⟩
    rw [if_pos rfl, hmal, htext, ← hsite]

/-- **No site proposes a key twice exactly when the linked ids agree.** -/
theorem nodup_backfillRows_iff :
    (∀ site, ((backfillRows input links site).map Prod.fst).Nodup) ↔
      LinkedIdsAgree input links := by
  have hsite : ∀ site, ((backfillRows input links site).map Prod.fst).Nodup ↔
      ∀ k id id', (k, id) ∈ backfillRows input links site →
        (k, id') ∈ backfillRows input links site → id = id' := by
    intro site
    unfold backfillRows
    rw [nodup_keys_dedup_iff]
    simp only [List.mem_dedup]
  simp only [hsite, mem_backfillRows]
  constructor
  · intro h site malId hdub id id' hid hid'
    exact h site (malId, site) id id' ⟨rfl, hdub, hid⟩ ⟨rfl, hdub, hid'⟩
  · rintro h site ⟨malId, site'⟩ id id' ⟨-, hdub, hid⟩ ⟨-, -, hid'⟩
    exact h site malId hdub id id' hid hid'

/-- The backfill raises exactly when a statement proposes a key twice. -/
theorem isSome_backfill_iff {ext : ExternalIds} :
    (backfillExternalIdsFromLinks input links ext).isSome = true ↔
      ∀ site, ((backfillRows input links site).map Prod.fst).Nodup := by
  unfold backfillExternalIdsFromLinks KeyedTable.putAll
  constructor
  · intro h site
    split at h
    · next htvdb =>
        simp only [Option.bind_eq_bind, Option.bind_some] at h
        split at h
        · next htmdb =>
            simp only [Option.bind_some] at h
            split at h
            · next himdb => cases site <;> assumption
            · cases h
        · cases h
    · cases h
  · intro h
    simp [h]

/-- A run completes exactly when its backfill does. -/
theorem isSome_runMatcher_iff {t : MatcherTables} :
    (runMatcher input t).isSome = true ↔
      ∃ links, linkSteps input t = some links ∧ LinkedIdsAgree input links := by
  unfold runMatcher
  cases hlinks : linkSteps input t with
  | none => simp
  | some links =>
      have hback : (backfillExternalIdsFromLinks input links t.externalId).isSome = true ↔
          LinkedIdsAgree input links := isSome_backfill_iff.trans nodup_backfillRows_iff
      simp only [Option.bind_eq_bind, Option.bind_some, Option.some.injEq, exists_eq_left']
      rw [← hback]
      cases backfillExternalIdsFromLinks input links t.externalId <;> simp

variable (input links) in
/-- **When the backfill is safe.**  Each statement proposes at most one row
for a key, and none raises, exactly when the linked ids agree; and a run
keeps its links exactly when those it has built agree. -/
theorem backfill_safe_iff (t : MatcherTables) :
    ((∀ site, ((backfillRows input links site).map Prod.fst).Nodup) ∧
        (backfillExternalIdsFromLinks input links t.externalId).isSome = true ↔
      LinkedIdsAgree input links) ∧
    ((runMatcher input t).isSome = true ↔
      ∃ built, linkSteps input t = some built ∧ LinkedIdsAgree input built) := by
  refine ⟨?_, isSome_runMatcher_iff⟩
  rw [isSome_backfill_iff, and_self]
  exact nodup_backfillRows_iff

end Backfill

/-- One show in two instances, under different tvdb ids. -/
def twoIdsWarehouse : Warehouse :=
  { Warehouse.empty with
    series :=
      upsertSeries (upsertSeries KeyedTable.empty "main" { id := 7, tvdbId := some "100" }
        ⟨1, "full", String.toLower⟩) "anime" { id := 9, tvdbId := some "200" }
          ⟨2, "full", String.toLower⟩ }

/-- One dubbed anime with a manual link in each instance. -/
def linkedTwice : MatcherInput where
  anime := KeyedTable.empty.upsert 1 { isEnglishDubbed := true } id
  manualLink :=
    (KeyedTable.empty.upsert ⟨1, "main", .sonarrSeries⟩ 7 id).upsert
      ⟨1, "anime", .sonarrSeries⟩ 9 id
  warehouse := twoIdsWarehouse
  sonarrInstances := ["main", "anime"]
  radarrInstances := []
  allowTitleYearMatch := false

/-- The run proposes two rows for (1, tvdb) and is rolled back. -/
theorem backfill_raises_linkedTwice :
    ((linkSteps linkedTwice ⟨KeyedTable.empty, KeyedTable.empty⟩).map fun built =>
        (backfillRows linkedTwice built .tvdb).map Prod.fst) =
      some [(1, .tvdb), (1, .tvdb)] ∧
    (runMatcher linkedTwice ⟨KeyedTable.empty, KeyedTable.empty⟩).isSome = false := by
  constructor
  · decide +kernel
  · decide +kernel

end Nebularr
