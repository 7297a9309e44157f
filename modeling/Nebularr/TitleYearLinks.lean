import Nebularr.MatcherRuns

/-!
# What title-year links point to

Each link that `_apply_title_year` inserts records the normalized title it was
found by.  Under that title the item it points to is the only one of its
instance, or the only one of a near year.  The year decides only where some
item of the title is near: a lone item of another year is linked all the same.
-/

namespace Nebularr

/-! ## The inserts with their details -/

/-- `match_detail` of a title-year link. -/
structure TitleYearDetail where
  normalizedTitle : String
  arr : Option String
deriving DecidableEq, Repr

/-- Only movies name their application. -/
def titleYearDetail (norm : String) : ArrEntity → TitleYearDetail
  | .sonarrSeries => ⟨norm, none⟩
  | .radarrMovie => ⟨norm, some "radarr"⟩

/-- A row of `mal.warehouse_link` with its `match_detail`. -/
structure DetailedLink where
  link : LinkRow
  detail : TitleYearDetail
deriving DecidableEq, Repr

/-- The item an anime matches, and the normalized title it matches by: the first
that decides. -/
def titleYearFind (items : List TitledItem) (a : AnimeCols) : Option (Int × String) :=
  (normalizedTitleVariants a.mainTitle a.additionalTitles).findSome? fun norm =>
    (matchByNorm items (malYear a.startDate) norm).map fun sid => (sid, norm)

/-- The inserts of one application, instance by instance. -/
def titleYearInserts (anime : List (Int × AnimeCols)) (entity : ArrEntity)
    (items : String → List TitledItem) (instances : List String) : List (LinkKey × DetailedLink) :=
  instances.flatMap fun inst => anime.filterMap fun a =>
    (titleYearFind (items inst) a.2).map fun found =>
      (⟨a.1, inst, entity⟩, ⟨⟨found.1, .titleYear, .medium⟩, titleYearDetail found.2 entity⟩)

/-- The inserts of `_apply_title_year`, in order. -/
def titleYearInserted (input : MatcherInput) (links : WarehouseLinks) :
    List (LinkKey × DetailedLink) :=
  if input.allowTitleYearMatch then
    let anime := titleYearAnime input links
    titleYearInserts (anime.filter fun a => !a.2.isMovie) .sonarrSeries (input.items .sonarrSeries)
        (input.instances .sonarrSeries) ++
      titleYearInserts (anime.filter fun a => a.2.isMovie) .radarrMovie (input.items .radarrMovie)
        (input.instances .radarrMovie)
  else []

theorem titleYearFind_fst (items : List TitledItem) (a : AnimeCols) :
    (titleYearFind items a).map Prod.fst = titleYearMatch items a := by
  unfold titleYearFind titleYearMatch
  induction normalizedTitleVariants a.mainTitle a.additionalTitles with
  | nil => rfl
  | cons norm rest ih =>
      rw [List.findSome?_cons, List.findSome?_cons]
      cases matchByNorm items (malYear a.startDate) norm with
      | none => exact ih
      | some sid => rfl

theorem map_titleYearInserts (anime : List (Int × AnimeCols)) (entity : ArrEntity)
    (items : String → List TitledItem) (instances : List String) :
    (titleYearInserts anime entity items instances).map (fun insert => (insert.1, insert.2.link)) =
      titleYearRows anime entity items instances := by
  unfold titleYearInserts titleYearRows
  rw [List.map_flatMap]
  congr 1
  funext inst
  rw [List.map_filterMap]
  congr 1
  funext a
  rw [← titleYearFind_fst, Option.map_map, Option.map_map]
  rfl

/-- The step is these inserts, one after another. -/
theorem applyTitleYear_eq_putEach (input : MatcherInput) (links : WarehouseLinks) :
    applyTitleYear input links =
      links.putEach
        ((titleYearInserted input links).map fun insert => (insert.1, insert.2.link)) := by
  unfold applyTitleYear titleYearInserted
  split
  · rw [List.map_append, map_titleYearInserts, map_titleYearInserts, KeyedTable.putEach,
      KeyedTable.putEach, KeyedTable.putEach, List.foldl_append]
    rfl
  · rfl

/-! ## One normalized title -/

/-- The item's year is unknown, or within one of the anime's, if that is known. -/
def TitledItem.Near (year : Option Int) (item : TitledItem) : Prop :=
  ∀ my y, year = some my → item.year = some y → (y - my).natAbs ≤ 1

theorem near_iff {year : Option Int} {item : TitledItem} :
    (year.all fun my => item.year.all fun y => decide ((y - my).natAbs ≤ 1)) = true ↔
      item.Near year := by
  unfold TitledItem.Near
  cases year with
  | none => simp
  | some my =>
      cases item.year with
      | none => simp
      | some y => simp

/-- An item is the only one of a list with a property. -/
structure OnlyWith (items : List TitledItem) (P : TitledItem → Prop) (item : TitledItem) :
    Prop where
  mem : item ∈ items
  holds : P item
  unique : ∀ other ∈ items, P other → other = item

theorem onlyWith_of_filter {items : List TitledItem} {P : TitledItem → Prop} {p : TitledItem → Bool}
    {item : TitledItem} (hp : ∀ other, p other = true ↔ P other)
    (h : items.filter p = [item]) : OnlyWith items P item := by
  have hiff : ∀ other, other ∈ items ∧ P other ↔ other = item := by
    intro other
    rw [← hp, ← List.mem_filter, h, List.mem_singleton]
  obtain ⟨hmem, hholds⟩ := (hiff item).mpr rfl
  exact ⟨hmem, hholds, fun other hother hP => (hiff other).mp ⟨hother, hP⟩⟩

/-- The item is the only one with the title, or the only near one with it. -/
def Singled (items : List TitledItem) (year : Option Int) (norm : String) (item : TitledItem) :
    Prop :=
  OnlyWith items (fun other => normTitle other.title = norm) item ∨
    OnlyWith items (fun other => normTitle other.title = norm ∧ other.Near year) item

/-- No item with the title is near. -/
def NoneNear (items : List TitledItem) (year : Option Int) (norm : String) : Prop :=
  ∀ other ∈ items, normTitle other.title = norm → ¬ other.Near year

/-- **What one normalized title decides.** -/
theorem singled_of_matchByNorm {items : List TitledItem} {year : Option Int} {norm : String}
    {sid : Int} (h : matchByNorm items year norm = some sid) :
    ∃ item, item.sourceId = sid ∧ Singled items year norm item ∧
      (item.Near year ∨ NoneNear items year norm) := by
  unfold matchByNorm at h
  dsimp only at h
  split at h
  · rename_i item hfiltered
    refine ⟨item, Option.some.inj h, ?_⟩
    split at hfiltered
    · rename_i hnone
      have honly : OnlyWith items (fun other => normTitle other.title = norm) item :=
        onlyWith_of_filter (fun other => decide_eq_true_iff) hfiltered
      refine ⟨Or.inl honly, Or.inr fun other hother htitle hnear => ?_⟩
      rw [List.filter_eq_nil_iff] at hnone
      exact hnone other (List.mem_filter.mpr ⟨hother, decide_eq_true htitle⟩) (near_iff.mpr hnear)
    · rw [List.filter_filter] at hfiltered
      have honly : OnlyWith items (fun other => normTitle other.title = norm ∧ other.Near year)
          item := by
        apply onlyWith_of_filter _ hfiltered
        intro other
        rw [Bool.and_eq_true, near_iff, decide_eq_true_iff, and_comm]
      exact ⟨Or.inr honly, Or.inl honly.holds.2⟩
  · cases h

/-! ## The links -/

/-- An inserted link relates an anime to an item that one of its titles singles out. -/
structure LinksItem (input : MatcherInput) (key : LinkKey) (insert : DetailedLink) (a : AnimeCols)
    (item : TitledItem) : Prop where
  anime : input.anime.row key.malId = some a
  own : insert.detail.normalizedTitle ∈ normalizedTitleVariants a.mainTitle a.additionalTitles
  points : item.sourceId = insert.link.warehouseSourceId
  singled : Singled (input.items key.arrEntity key.instanceName) (malYear a.startDate)
    insert.detail.normalizedTitle item

/-- Every inserted link points to an item that its title singles out, and that is near. -/
def LinksNear (input : MatcherInput) (links : WarehouseLinks) : Prop :=
  ∀ key insert, (key, insert) ∈ titleYearInserted input links →
    ∃ a item, LinksItem input key insert a item ∧ item.Near (malYear a.startDate)

theorem mem_titleYearInserts {anime : List (Int × AnimeCols)} {entity : ArrEntity}
    {items : String → List TitledItem} {instances : List String} {key : LinkKey}
    {insert : DetailedLink} (h : (key, insert) ∈ titleYearInserts anime entity items instances) :
    key.arrEntity = entity ∧ ∃ a norm, (key.malId, a) ∈ anime ∧
      norm ∈ normalizedTitleVariants a.mainTitle a.additionalTitles ∧
      matchByNorm (items key.instanceName) (malYear a.startDate) norm =
        some insert.link.warehouseSourceId ∧ insert.detail.normalizedTitle = norm := by
  obtain ⟨inst, _, hinsert⟩ := List.mem_flatMap.mp h
  obtain ⟨⟨malId, a⟩, ha, hfound⟩ := List.mem_filterMap.mp hinsert
  obtain ⟨⟨sid, norm⟩, hfind, heq⟩ := Option.map_eq_some_iff.mp hfound
  obtain ⟨rfl, rfl⟩ := Prod.mk.inj heq
  obtain ⟨norm', hown, hmatch⟩ := List.exists_of_findSome?_eq_some hfind
  obtain ⟨sid', hsid, hpair⟩ := Option.map_eq_some_iff.mp hmatch
  obtain ⟨rfl, rfl⟩ := Prod.mk.inj hpair
  refine ⟨rfl, a, norm', ha, hown, hsid, ?_⟩
  cases entity <;> rfl

/-- **Where title-year links point.**  To an item singled out by the title in
the detail; and its year is near, unless no live item of that title has a near
year. -/
theorem titleYear_links_singled (input : MatcherInput) (links : WarehouseLinks) :
    ∀ key insert, (key, insert) ∈ titleYearInserted input links →
      ∃ a item, LinksItem input key insert a item ∧
        (item.Near (malYear a.startDate) ∨
          NoneNear (input.items key.arrEntity key.instanceName) (malYear a.startDate)
            insert.detail.normalizedTitle) := by
  intro key insert h
  have hone : ∀ (p : Int × AnimeCols → Bool) (entity : ArrEntity),
      (key, insert) ∈ titleYearInserts ((titleYearAnime input links).filter p) entity
          (input.items entity) (input.instances entity) →
        ∃ a item, LinksItem input key insert a item ∧
          (item.Near (malYear a.startDate) ∨
            NoneNear (input.items key.arrEntity key.instanceName) (malYear a.startDate)
              insert.detail.normalizedTitle) := by
    intro p entity hmem
    obtain ⟨rfl, a, norm, ha, hown, hmatch, rfl⟩ := mem_titleYearInserts hmem
    obtain ⟨item, hpoints, hsingled, hnear⟩ := singled_of_matchByNorm hmatch
    have hanime := (mem_titleYearAnime.mp (List.mem_of_mem_filter ha)).1
    exact ⟨a, item, ⟨hanime, hown, hpoints, hsingled⟩, hnear⟩
  unfold titleYearInserted at h
  split at h
  · rcases List.mem_append.mp h with hseries | hmovies
    · exact hone _ _ hseries
    · exact hone _ _ hmovies
  · cases h

/-- **The title-year links of a run** are inserted by it: none is left of an
earlier one. -/
theorem exists_titleYearInserted {input : MatcherInput} {t : MatcherTables}
    {built : WarehouseLinks} {key : LinkKey} {link : LinkRow}
    (hbuilt : linkSteps input t = some built) (hlink : built.row key = some link)
    (hmethod : link.matchMethod = .titleYear) :
    ∃ exact detail, exactSteps input t = some exact ∧
      (key, ⟨link, detail⟩) ∈ titleYearInserted input exact := by
  obtain ⟨exact, hsteps, hexact⟩ := exists_exactSteps input t.externalId t.warehouseLink
  obtain ⟨built', hmanual, hrow⟩ :=
    exists_upsertManualWarehouseLinks input (applyTitleYear input exact)
  have hsame : built = built' := by
    rw [linkSteps_eq_bind, hsteps, Option.bind_some, hmanual] at hbuilt
    exact (Option.some.inj hbuilt).symm
  rw [hsame, hrow, Option.or_eq_some_iff] at hlink
  rcases hlink with hlink | ⟨_, hlink⟩
  · obtain ⟨sid, _, rfl⟩ := Option.map_eq_some_iff.mp hlink
    cases hmethod
  · rw [applyTitleYear_eq_putEach] at hlink
    rcases KeyedTable.mem_or_row_of_putEach hlink with hmem | hold
    · obtain ⟨⟨key', link', detail⟩, hinsert, heq⟩ := List.mem_map.mp hmem
      obtain ⟨rfl, rfl⟩ := Prod.mk.inj heq
      exact ⟨exact, detail, hsteps, hinsert⟩
    · rw [hexact, Option.or_eq_some_iff] at hold
      rcases hold with hsite | ⟨_, hleft⟩
      · obtain ⟨site, hsite⟩ := exists_siteMethod_of_exactRow hsite
        rw [hsite] at hmethod
        cases site <;> cases hmethod
      · rw [manualLeft, Option.filter_eq_some_iff, Bool.and_eq_true, decide_eq_true_iff] at hleft
        rw [hleft.2.1] at hmethod
        cases hmethod

/-! ## A lone item of another year -/

/-- An anime of 2004 and the remake of 2022 on file, alone of that title. -/
def remake : MatcherInput where
  anime := KeyedTable.empty.upsert 1
    { isEnglishDubbed := true, mainTitle := some "Bleach", startDate := some "2004-10-05" } id
  manualLink := KeyedTable.empty
  warehouse :=
    { Warehouse.empty with
      series := upsertSeries KeyedTable.empty "main"
        { id := 7, title := some "Bleach", year := some 2022 } ⟨1, "full", String.toLower⟩ }
  sonarrInstances := ["main"]
  radarrInstances := []
  allowTitleYearMatch := true

/-- The link to it. -/
def remakeLink : DetailedLink := ⟨⟨7, .titleYear, .medium⟩, ⟨"bleach", none⟩⟩

theorem inserted_remake :
    (⟨1, "main", .sonarrSeries⟩, remakeLink) ∈ titleYearInserted remake KeyedTable.empty := by
  decide +kernel

/-- The remake is linked, though eighteen years apart. -/
theorem not_linksNear_remake : ¬ LinksNear remake KeyedTable.empty := by
  intro h
  obtain ⟨a, item, hlinks, hnear⟩ := h _ _ inserted_remake
  have hitems : remake.items .sonarrSeries "main" = [⟨7, "Bleach", some 2022⟩] := by
    decide +kernel
  have hitem : item ∈ remake.items .sonarrSeries "main" := by
    rcases hlinks.singled with honly | honly <;> exact honly.mem
  rw [hitems, List.mem_singleton] at hitem
  have hyear : (remake.anime.row 1).bind (fun a => malYear a.startDate) = some 2004 := by
    decide +kernel
  rw [hlinks.anime, Option.bind_some] at hyear
  have hclose := hnear 2004 2022 hyear (by rw [hitem])
  exact absurd hclose (by decide)

/-- It is the only item of its title, and none is near. -/
theorem titleYear_links_singled_remake :
    ∃ a item, LinksItem remake ⟨1, "main", .sonarrSeries⟩ remakeLink a item ∧
      (item.Near (malYear a.startDate) ∨
        NoneNear (remake.items .sonarrSeries "main") (malYear a.startDate) "bleach") :=
  titleYear_links_singled remake KeyedTable.empty _ _ inserted_remake

end Nebularr
