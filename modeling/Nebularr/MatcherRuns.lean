import Nebularr.Backfill

/-!
# What the matcher makes of its own links

Of the links on file a run keeps the manual rows of dubbed anime and nothing
else: `clear_auto_warehouse_links` deletes by method, and a manual row that
has lost its `manual_link` is not told from one that has it.  Such a row
stays, and it also keeps its anime from being matched by title and year.
Everything else a run builds is a function of the anime, their external ids,
the manual links and the warehouse.

The external ids are part of the feedback by design: the backfill writes the
ids of linked items back, and the next run matches by them.  Where it writes
nothing new, and the manual rows on file are settled, a second run rebuilds
the same links.
-/

namespace Nebularr

section Spec

variable (input : MatcherInput) (ext : ExternalIds) (links : WarehouseLinks) (key : LinkKey)

/-- The manual row of a dubbed anime that survives the two deletes. -/
def manualLeft : Option LinkRow :=
  (links.row key).filter fun link => decide (link.matchMethod = .manual) &&
    !(input.anime.row key.malId).any fun a => !a.isEnglishDubbed

/-- The exact match: a later statement overwrites an earlier one. -/
def exactRow : Option LinkRow :=
  (exactLink input ext .imdb key).or ((exactLink input ext .tmdb key).or
    (exactLink input ext .tvdb key))

/-- The row of a manual link. -/
def manualRow : Option LinkRow :=
  (input.manualLink.row key).map fun sid => ⟨sid, .manual, .high⟩

/-- Which library an anime is looked up in by title. -/
def AnimeCols.arrEntity (a : AnimeCols) : ArrEntity :=
  if a.isMovie then .radarrMovie else .sonarrSeries

/-- The instances of a library. -/
def MatcherInput.instances (input : MatcherInput) : ArrEntity → List String
  | .sonarrSeries => input.sonarrInstances
  | .radarrMovie => input.radarrInstances

/-- The live items of one of its instances. -/
def MatcherInput.items (input : MatcherInput) : ArrEntity → String → List TitledItem
  | .sonarrSeries => titledItems input.warehouse.series SeriesCols.title fun s => s.payload.year
  | .radarrMovie => titledItems input.warehouse.movie MovieCols.title fun m => m.payload.year

/-- The title-year match of a key, for an anime that is considered. -/
def titleYearLink : Option LinkRow :=
  if input.allowTitleYearMatch then
    (input.anime.row key.malId).bind fun a =>
      if a.isEnglishDubbed = true ∧ a.titled = true ∧ a.arrEntity = key.arrEntity ∧
          key.instanceName ∈ input.instances key.arrEntity then
        (titleYearMatch (input.items key.arrEntity key.instanceName) a).map fun sid =>
          ⟨sid, .titleYear, .medium⟩
      else none
  else none

/-- The anime has neither an exact match nor a manual row on file. -/
def Unmatched (malId : Int) : Prop :=
  ∀ key : LinkKey, key.malId = malId →
    exactRow input ext key = none ∧ manualLeft input links key = none

end Spec

/-! ## The steps, key by key -/

section Steps

variable {input : MatcherInput} {ext ext' : ExternalIds} {links : WarehouseLinks} {key : LinkKey}

/-- Of the rows on file only those of `manualLeft` survive. -/
theorem row_cleared :
    (clearAutoWarehouseLinks (deleteLinksForUndubbed input links)).row key =
      manualLeft input links key := by
  rw [clearAutoWarehouseLinks, KeyedTable.row_deleteWhere, deleteLinksForUndubbed,
    KeyedTable.row_deleteWhere, manualLeft]
  cases links.row key with
  | none => rfl
  | some link =>
      obtain ⟨sid, method, confidence⟩ := link
      cases (input.anime.row key.malId).any fun a => !a.isEnglishDubbed <;>
        cases method <;> simp [Option.filter]

/-- The candidates of an exact match. -/
theorem mem_exactCandidates {site : ExternalSite} {sid : Int} :
    (key, sid) ∈ exactCandidates input ext site ↔
      key.arrEntity = siteEntity site ∧ input.isDubbed key.malId = true ∧
        ∃ id text, ext.row (key.malId, site) = some id ∧
          (⟨sid, key.instanceName⟩, text) ∈ siteIds input.warehouse site ∧
          matchKey site text = matchKey site id := by
  unfold exactCandidates
  rw [List.mem_flatMap]
  constructor
  · rintro ⟨⟨⟨malId, site'⟩, id⟩, hext, hrow⟩
    split at hrow
    · next hcond =>
        obtain ⟨rfl, hdub⟩ := hcond
        obtain ⟨⟨item, text⟩, hitem, hsome⟩ := List.mem_filterMap.mp hrow
        split at hsome
        · next hsame =>
            obtain ⟨rfl, rfl⟩ := Prod.mk.inj (Option.some.inj hsome)
            exact ⟨rfl, hdub, id, text, KeyedTable.row_eq_some_iff.mpr hext, hitem, hsame⟩
        · cases hsome
    · cases hrow
  · rintro ⟨hentity, hdub, id, text, hext, hitem, hsame⟩
    refine ⟨⟨(key.malId, site), id⟩, KeyedTable.row_eq_some_iff.mp hext, ?_⟩
    rw [if_pos ⟨rfl, hdub⟩, List.mem_filterMap]
    refine ⟨(⟨sid, key.instanceName⟩, text), hitem, ?_⟩
    rw [if_pos hsame, ← hentity]

/-- Two tables of external ids that the matches compare alike. -/
def SameMatchKeys (input : MatcherInput) (ext ext' : ExternalIds) : Prop :=
  ∀ malId site, input.isDubbed malId = true →
    (ext'.row (malId, site)).map (matchKey site) = (ext.row (malId, site)).map (matchKey site)

/-- **Exact matches depend on the external ids as they are compared.** -/
theorem exactLink_congr (h : SameMatchKeys input ext ext') (site : ExternalSite) (key : LinkKey) :
    exactLink input ext' site key = exactLink input ext site key := by
  unfold exactLink exactLinks
  rw [find?_distinctOn_insertionSort_congr]
  rintro ⟨key', sid⟩
  rw [mem_exactCandidates, mem_exactCandidates]
  refine and_congr_right fun _ => and_congr_right fun hdub => ?_
  have hsame := h key'.malId site hdub
  constructor
  · rintro ⟨id, text, hid, hitem, hkey⟩
    rw [hid, Option.map_some, eq_comm, Option.map_eq_some_iff] at hsame
    obtain ⟨id', hid', hsame⟩ := hsame
    exact ⟨id', text, hid', hitem, hkey.trans hsame.symm⟩
  · rintro ⟨id, text, hid, hitem, hkey⟩
    rw [hid, Option.map_some, Option.map_eq_some_iff] at hsame
    obtain ⟨id', hid', hsame⟩ := hsame
    exact ⟨id', text, hid', hitem, hkey.trans hsame.symm⟩

/-- The exact links see the matching keys only. -/
theorem exactRow_congr (h : SameMatchKeys input ext ext') (key : LinkKey) :
    exactRow input ext' key = exactRow input ext key := by
  unfold exactRow
  rw [exactLink_congr h, exactLink_congr h, exactLink_congr h]

/-- An anime has no link if none is on file under it. -/
theorem hasNoLink_iff {malId : Int} :
    hasNoLink links malId = true ↔ ∀ key : LinkKey, key.malId = malId → links.row key = none := by
  unfold hasNoLink
  rw [Bool.not_eq_true', List.any_eq_false]
  constructor
  · intro h key hkey
    rw [Option.eq_none_iff_forall_not_mem]
    intro link hlink
    exact h ⟨key, link⟩ (KeyedTable.row_eq_some_iff.mp hlink) (decide_eq_true hkey)
  · rintro h ⟨key, link⟩ hmem htest
    have hrow := KeyedTable.row_eq_some_iff.mpr hmem
    rw [h key (of_decide_eq_true htest)] at hrow
    cases hrow

/-- The anime under an id is one of those considered. -/
theorem mem_titleYearAnime {malId : Int} {a : AnimeCols} :
    (malId, a) ∈ titleYearAnime input links ↔ input.anime.row malId = some a ∧
      a.isEnglishDubbed = true ∧ hasNoLink links malId = true ∧ a.titled = true := by
  rw [titleYearAnime, KeyedTable.mem_selectWhere_iff, Bool.and_eq_true, Bool.and_eq_true, and_assoc]

/-- The rows of one application. -/
theorem mem_titleYearRows {anime : List (Int × AnimeCols)} {entity : ArrEntity}
    {items : String → List TitledItem} {instances : List String} {link : LinkRow} :
    (key, link) ∈ titleYearRows anime entity items instances ↔
      key.arrEntity = entity ∧ key.instanceName ∈ instances ∧
        ∃ a, (key.malId, a) ∈ anime ∧
          ((titleYearMatch (items key.instanceName) a).map fun sid =>
            (⟨sid, .titleYear, .medium⟩ : LinkRow)) = some link := by
  unfold titleYearRows
  rw [List.mem_flatMap]
  constructor
  · rintro ⟨inst, hinst, hrow⟩
    obtain ⟨⟨malId, a⟩, ha, hsome⟩ := List.mem_filterMap.mp hrow
    obtain ⟨sid, hsid, heq⟩ := Option.map_eq_some_iff.mp hsome
    obtain ⟨rfl, rfl⟩ := Prod.mk.inj heq
    exact ⟨rfl, hinst, a, ha, by rw [hsid, Option.map_some]⟩
  · rintro ⟨rfl, hinst, a, ha, hmatch⟩
    obtain ⟨sid, hsid, rfl⟩ := Option.map_eq_some_iff.mp hmatch
    refine ⟨key.instanceName, hinst, List.mem_filterMap.mpr ⟨(key.malId, a), ha, ?_⟩⟩
    rw [hsid, Option.map_some]

variable (links key) in
/-- The rows of one of the two applications, under a key. -/
theorem mem_titleYearRows_iff (entity : ArrEntity) (isMovie : Bool)
    (hentity : ∀ a : AnimeCols, a.arrEntity = entity ↔ a.isMovie = isMovie)
    (hallow : input.allowTitleYearMatch = true) (link : LinkRow) :
    (key, link) ∈
      titleYearRows ((titleYearAnime input links).filter fun a => a.2.isMovie == isMovie)
        entity (input.items entity) (input.instances entity) ↔
      (if key.arrEntity = entity ∧ hasNoLink links key.malId = true then titleYearLink input key
        else none) = some link := by
  rw [mem_titleYearRows]
  constructor
  · rintro ⟨rfl, hinst, a, ha, hmatch⟩
    rw [List.mem_filter, mem_titleYearAnime, beq_iff_eq] at ha
    obtain ⟨⟨hrow, hdub, hno, htitled⟩, hmovie⟩ := ha
    rw [if_pos ⟨rfl, hno⟩, titleYearLink, if_pos hallow, hrow, Option.bind_some,
      if_pos ⟨hdub, htitled, (hentity a).mpr hmovie, hinst⟩, hmatch]
  · intro h
    split at h
    · next hcond =>
        obtain ⟨rfl, hno⟩ := hcond
        rw [titleYearLink, if_pos hallow, Option.bind_eq_some_iff] at h
        obtain ⟨a, hrow, h⟩ := h
        split at h
        · next hall =>
            refine ⟨rfl, hall.2.2.2, a, ?_, h⟩
            rw [List.mem_filter, mem_titleYearAnime, beq_iff_eq]
            exact ⟨⟨hrow, hall.1, hno, hall.2.1⟩, (hentity a).mp hall.2.2.1⟩
        · cases h
    · cases h

/-- The two applications, alike. -/
theorem applyTitleYear_eq (hallow : input.allowTitleYearMatch = true) :
    applyTitleYear input links =
      (links.putEach (titleYearRows
        ((titleYearAnime input links).filter fun a => a.2.isMovie == false) .sonarrSeries
        (input.items .sonarrSeries) (input.instances .sonarrSeries))).putEach (titleYearRows
          ((titleYearAnime input links).filter fun a => a.2.isMovie == true) .radarrMovie
          (input.items .radarrMovie) (input.instances .radarrMovie)) := by
  have hseries : (fun a : Int × AnimeCols => a.2.isMovie == false) = fun a => !a.2.isMovie := by
    funext a
    cases a.2.isMovie <;> rfl
  have hmovies : (fun a : Int × AnimeCols => a.2.isMovie == true) = fun a => a.2.isMovie := by
    funext a
    cases a.2.isMovie <;> rfl
  unfold applyTitleYear
  rw [if_pos hallow, hseries, hmovies]
  rfl

/-- **The title-year step**: it matches exactly the anime without a link. -/
theorem row_applyTitleYear :
    (applyTitleYear input links).row key =
      if hasNoLink links key.malId then titleYearLink input key else links.row key := by
  by_cases hallow : input.allowTitleYearMatch = true
  · have hseries := mem_titleYearRows_iff links key .sonarrSeries false
      (by simp [AnimeCols.arrEntity]) hallow
    have hmovies := mem_titleYearRows_iff links key .radarrMovie true
      (by simp [AnimeCols.arrEntity]) hallow
    rw [applyTitleYear_eq hallow, KeyedTable.row_putEach hmovies, KeyedTable.row_putEach hseries]
    by_cases hno : hasNoLink links key.malId = true
    · rw [hasNoLink_iff.mp hno key rfl, if_pos hno]
      cases hentity : key.arrEntity <;> simp [hno]
    · simp [hno]
  · rw [applyTitleYear, if_neg hallow]
    split
    · next hno =>
        rw [hasNoLink_iff.mp hno key rfl, titleYearLink, if_neg hallow]
    · rfl

/-- The run up to the title-year step. -/
def exactSteps (input : MatcherInput) (t : MatcherTables) : Option WarehouseLinks := do
  let links := clearAutoWarehouseLinks (deleteLinksForUndubbed input t.warehouseLink)
  let links ← insertTvdbSeriesLinks input t.externalId links
  let links ← insertTmdbRadarrLinks input t.externalId links
  insertImdbRadarrLinks input t.externalId links

/-- The three steps, one after the other. -/
theorem linkSteps_eq_bind (input : MatcherInput) (t : MatcherTables) :
    linkSteps input t = (exactSteps input t).bind fun exact =>
      upsertManualWarehouseLinks input (applyTitleYear input exact) := by
  simp [linkSteps, exactSteps, Option.bind_assoc]

/-- The exact step writes its links and leaves the manual ones. -/
theorem exists_exactSteps (input : MatcherInput) (ext : ExternalIds) (links : WarehouseLinks) :
    ∃ exact, exactSteps input ⟨ext, links⟩ = some exact ∧
      ∀ key, exact.row key = (exactRow input ext key).or (manualLeft input links key) := by
  obtain ⟨afterTvdb, htvdb, hrowTvdb⟩ := exists_insertExactLinks input ext
    (clearAutoWarehouseLinks (deleteLinksForUndubbed input links)) .tvdb
  obtain ⟨afterTmdb, htmdb, hrowTmdb⟩ := exists_insertExactLinks input ext afterTvdb .tmdb
  obtain ⟨exact, himdb, hrowImdb⟩ := exists_insertExactLinks input ext afterTmdb .imdb
  refine ⟨exact, ?_, fun key => ?_⟩
  · simp [exactSteps, insertTvdbSeriesLinks, insertTmdbRadarrLinks, insertImdbRadarrLinks, htvdb,
      htmdb, himdb]
  · rw [hrowImdb, hrowTmdb, hrowTvdb, row_cleared, exactRow, Option.or_assoc, Option.or_assoc]

/-- **What a run builds**, key by key. -/
theorem exists_linkSteps (input : MatcherInput) (ext : ExternalIds) (links : WarehouseLinks) :
    ∃ built, linkSteps input ⟨ext, links⟩ = some built ∧ ∀ key : LinkKey,
      (Unmatched input ext links key.malId →
        built.row key = (manualRow input key).or (titleYearLink input key)) ∧
      (¬ Unmatched input ext links key.malId →
        built.row key =
          (manualRow input key).or ((exactRow input ext key).or (manualLeft input links key))) := by
  obtain ⟨exact, hsteps, hexact⟩ := exists_exactSteps input ext links
  obtain ⟨built, hbuilt, hrowBuilt⟩ :=
    exists_upsertManualWarehouseLinks input (applyTitleYear input exact)
  have hunmatched : ∀ malId, hasNoLink exact malId = true ↔ Unmatched input ext links malId := by
    intro malId
    rw [hasNoLink_iff]
    refine forall₂_congr fun key _ => ?_
    rw [hexact, Option.or_eq_none_iff]
  refine ⟨built, ?_, fun key => ⟨fun h => ?_, fun h => ?_⟩⟩
  · rw [linkSteps_eq_bind, hsteps, Option.bind_some, hbuilt]
  · rw [hrowBuilt, row_applyTitleYear, if_pos ((hunmatched key.malId).mpr h)]
    rfl
  · rw [hrowBuilt, row_applyTitleYear, if_neg (h ∘ (hunmatched key.malId).mp), hexact]
    rfl

end Steps

/-! ## One run after another -/

section Runs

variable {input : MatcherInput} {ext ext' : ExternalIds}
  {links links' built built' : WarehouseLinks}

/-- Two builds from the same manual rows and ids that compare alike agree. -/
theorem row_linkSteps_congr
    (hleft : ∀ key, manualLeft input links' key = manualLeft input links key)
    (hext : SameMatchKeys input ext ext') (hbuilt : linkSteps input ⟨ext, links⟩ = some built)
    (hbuilt' : linkSteps input ⟨ext', links'⟩ = some built') (key : LinkKey) :
    built'.row key = built.row key := by
  obtain ⟨b, hb, hrow⟩ := exists_linkSteps input ext links
  obtain ⟨b', hb', hrow'⟩ := exists_linkSteps input ext' links'
  obtain rfl := Option.some.inj (hb.symm.trans hbuilt)
  obtain rfl := Option.some.inj (hb'.symm.trans hbuilt')
  have hsame : Unmatched input ext' links' key.malId ↔ Unmatched input ext links key.malId := by
    refine forall₂_congr fun key' _ => ?_
    rw [exactRow_congr hext, hleft]
  by_cases h : Unmatched input ext links key.malId
  · rw [(hrow key).1 h, (hrow' key).1 (hsame.mpr h)]
  · rw [(hrow key).2 h, (hrow' key).2 (h ∘ hsame.mp), exactRow_congr hext, hleft]

variable (input ext links) in
/-- The manual rows on file make no difference: each lies under a manual link
or an exact match, and none keeps its anime from a title-year match. -/
structure ManualSettled : Prop where
  covered : ∀ key, manualLeft input links key ≠ none →
    manualRow input key ≠ none ∨ exactRow input ext key ≠ none
  unblocked : ∀ malId,
    (∃ key : LinkKey, key.malId = malId ∧ manualLeft input links key ≠ none) →
    (∀ key : LinkKey, key.malId = malId → exactRow input ext key = none) →
      ∀ key : LinkKey, key.malId = malId → titleYearLink input key ≠ none →
        manualRow input key ≠ none

variable (input ext) in
/-- No manual link takes a title-year match from its anime, once it has become
a row on file. -/
def ManualLinksApart : Prop :=
  ∀ malId, (∃ key : LinkKey, key.malId = malId ∧ manualRow input key ≠ none) →
    (∀ key : LinkKey, key.malId = malId → exactRow input ext key = none) →
      ∀ key : LinkKey, key.malId = malId → titleYearLink input key ≠ none →
        manualRow input key ≠ none

/-- Without a link there is no manual one. -/
theorem manualLeft_empty (key : LinkKey) : manualLeft input KeyedTable.empty key = none := by
  rw [manualLeft, KeyedTable.row_empty, Option.filter_none]

/-- **Settled manual rows leave no trace**: the build is that from an empty
table. -/
theorem row_linkSteps_of_settled (h : ManualSettled input ext links)
    (hbuilt : linkSteps input ⟨ext, links⟩ = some built)
    (hbuilt' : linkSteps input ⟨ext, KeyedTable.empty⟩ = some built') (key : LinkKey) :
    built.row key = built'.row key := by
  obtain ⟨b, hb, hrow⟩ := exists_linkSteps input ext links
  obtain ⟨b', hb', hrow'⟩ := exists_linkSteps input ext KeyedTable.empty
  obtain rfl := Option.some.inj (hb.symm.trans hbuilt)
  obtain rfl := Option.some.inj (hb'.symm.trans hbuilt')
  have hempty : Unmatched input ext KeyedTable.empty key.malId ↔
      ∀ key' : LinkKey, key'.malId = key.malId → exactRow input ext key' = none := by
    refine forall₂_congr fun key' _ => ?_
    rw [manualLeft_empty]
    exact and_iff_left rfl
  by_cases hmanual : manualRow input key = none
  · by_cases hnone : Unmatched input ext links key.malId
    · have hexact := hempty.mpr fun key' hkey' => (hnone key' hkey').1
      rw [(hrow key).1 hnone, (hrow' key).1 hexact]
    · rw [(hrow key).2 hnone, hmanual, Option.none_or]
      by_cases hexact : Unmatched input ext KeyedTable.empty key.malId
      · -- a manual row is all that keeps the anime from the title-year step
        have hnoExact := hempty.mp hexact
        have hblocked : ∃ key' : LinkKey, key'.malId = key.malId ∧
            manualLeft input links key' ≠ none := by
          by_contra hnot
          refine hnone fun key' hkey' => ⟨hnoExact key' hkey', ?_⟩
          by_contra hleft
          exact hnot ⟨key', hkey', hleft⟩
        have htitle : titleYearLink input key = none := by
          by_contra hmatch
          exact h.unblocked key.malId hblocked hnoExact key rfl hmatch hmanual
        have hleft : manualLeft input links key = none := by
          by_contra hrowLeft
          rcases h.covered key hrowLeft with hcov | hcov
          · exact hcov hmanual
          · exact hcov (hnoExact key rfl)
        rw [(hrow' key).1 hexact, hmanual, hnoExact key rfl, hleft, htitle]
      · rw [(hrow' key).2 hexact, hmanual, manualLeft_empty, Option.none_or, Option.or_none]
        cases hmatch : exactRow input ext key with
        | some link => rfl
        | none =>
            rw [Option.none_or]
            by_contra hleft
            rcases h.covered key hleft with hcov | hcov
            · exact hcov hmanual
            · exact hcov hmatch
  · obtain ⟨link, hlink⟩ := Option.ne_none_iff_exists'.mp hmanual
    by_cases hnone : Unmatched input ext links key.malId <;>
      by_cases hexact : Unmatched input ext KeyedTable.empty key.malId <;>
        simp [hrow key, hrow' key, hnone, hexact, hlink]

/-- The links agree with the rows of another table, and so do the ids. -/
theorem linkedIdsAgree_congr (h : ∀ key, links'.row key = links.row key) :
    LinkedIdsAgree input links' ↔ LinkedIdsAgree input links := by
  unfold LinkedIdsAgree LinkedId
  simp only [h]

/-- The links a run leaves under a key; nothing when it is rolled back. -/
def linksAfter (input : MatcherInput) (t : MatcherTables) (key : LinkKey) :
    Option (Option LinkRow) :=
  (runMatcher input t).map fun t' => t'.warehouseLink.row key

/-- Builds that agree end alike. -/
theorem linksAfter_congr {t t' : MatcherTables} (hbuilt : linkSteps input t = some built)
    (hbuilt' : linkSteps input t' = some built') (h : ∀ key, built'.row key = built.row key)
    (key : LinkKey) : linksAfter input t' key = linksAfter input t key := by
  have hruns : ∀ {t : MatcherTables} {built : WarehouseLinks}, linkSteps input t = some built →
      linksAfter input t key =
        if (runMatcher input t).isSome then some (built.row key) else none := by
    intro t built hbuilt
    unfold linksAfter runMatcher
    rw [hbuilt]
    cases hext : backfillExternalIdsFromLinks input built t.externalId <;> simp [hext]
  have hsome : (runMatcher input t').isSome = (runMatcher input t).isSome := by
    rw [Bool.eq_iff_iff, isSome_runMatcher_iff, isSome_runMatcher_iff, hbuilt, hbuilt']
    simp only [Option.some.injEq, exists_eq_left']
    exact linkedIdsAgree_congr h
  rw [hruns hbuilt, hruns hbuilt', hsome, h]

/-- An exact match carries the method of a site. -/
theorem exists_siteMethod_of_exactRow {key : LinkKey} {link : LinkRow}
    (h : exactRow input ext key = some link) : ∃ site, link.matchMethod = siteMethod site := by
  have hsite : ∀ {site : ExternalSite}, exactLink input ext site key = some link →
      ∃ site, link.matchMethod = siteMethod site := by
    intro site hlink
    obtain ⟨found, -, rfl⟩ := Option.map_eq_some_iff.mp hlink
    exact ⟨site, rfl⟩
  rw [exactRow, Option.or_eq_some_iff, Option.or_eq_some_iff] at h
  rcases h with himdb | ⟨-, htmdb | ⟨-, htvdb⟩⟩
  · exact hsite himdb
  · exact hsite htmdb
  · exact hsite htvdb

/-- An exact link is not a manual one. -/
theorem matchMethod_exactRow {key : LinkKey} {link : LinkRow}
    (h : exactRow input ext key = some link) : link.matchMethod ≠ .manual := by
  obtain ⟨site, hsite⟩ := exists_siteMethod_of_exactRow h
  rw [hsite]
  cases site <;> simp [siteMethod]

/-- Nor is one by title and year. -/
theorem matchMethod_titleYearLink {key : LinkKey} {link : LinkRow}
    (h : titleYearLink input key = some link) : link.matchMethod ≠ .manual := by
  unfold titleYearLink at h
  split at h
  · obtain ⟨a, -, h⟩ := Option.bind_eq_some_iff.mp h
    split at h
    · obtain ⟨sid, -, rfl⟩ := Option.map_eq_some_iff.mp h
      simp
    · cases h
  · cases h

/-- A title-year match is in the library of its anime, on one of its instances. -/
theorem exists_anime_of_titleYearLink {key : LinkKey} (h : titleYearLink input key ≠ none) :
    ∃ a, input.anime.row key.malId = some a ∧ a.arrEntity = key.arrEntity ∧
      key.instanceName ∈ input.instances key.arrEntity := by
  obtain ⟨link, hlink⟩ := Option.ne_none_iff_exists'.mp h
  unfold titleYearLink at hlink
  split at hlink
  · obtain ⟨a, hrow, hlink⟩ := Option.bind_eq_some_iff.mp hlink
    split at hlink
    · next hall => exact ⟨a, hrow, hall.2.2.1, hall.2.2.2⟩
    · cases hlink
  · cases hlink

/-- The manual rows that a settled run leaves to the next one are those of
the manual links. -/
theorem manualRow_of_manualLeft (h : ManualSettled input ext links)
    (hbuilt : linkSteps input ⟨ext, links⟩ = some built) {key : LinkKey}
    (hleft : manualLeft input built key ≠ none) : manualRow input key ≠ none := by
  obtain ⟨fresh, hfresh, hrow⟩ := exists_linkSteps input ext KeyedTable.empty
  obtain ⟨link, hlink⟩ := Option.ne_none_iff_exists'.mp hleft
  rw [manualLeft, Option.filter_eq_some_iff, row_linkSteps_of_settled h hbuilt hfresh] at hlink
  obtain ⟨hlink, hmethod⟩ := hlink
  simp only [Bool.and_eq_true, decide_eq_true_eq] at hmethod
  intro hnone
  by_cases hexact : Unmatched input ext KeyedTable.empty key.malId
  · rw [(hrow key).1 hexact, hnone, Option.none_or] at hlink
    exact matchMethod_titleYearLink hlink hmethod.1
  · rw [(hrow key).2 hexact, hnone, manualLeft_empty, Option.none_or, Option.or_none] at hlink
    exact matchMethod_exactRow hlink hmethod.1

/-- **A second run rebuilds the links** of a settled first one whose backfill
wrote nothing new. -/
theorem runMatcher_again {t t' : MatcherTables}
    (h : ManualSettled input t.externalId t.warehouseLink)
    (hapart : ManualLinksApart input t.externalId) (hrun : runMatcher input t = some t')
    (hext : SameMatchKeys input t.externalId t'.externalId) (key : LinkKey) :
    linksAfter input t' key = linksAfter input t key := by
  obtain ⟨first, hfirst, -⟩ := exists_linkSteps input t.externalId t.warehouseLink
  have hlinks : t'.warehouseLink = first := by
    simp only [runMatcher, hfirst, Option.bind_eq_bind, Option.bind_some,
      Option.bind_eq_some_iff] at hrun
    obtain ⟨ext, -, hsome⟩ := hrun
    exact (congrArg MatcherTables.warehouseLink (Option.some.inj hsome)).symm
  subst hlinks
  have hsettled : ManualSettled input t'.externalId t'.warehouseLink := by
    constructor
    · exact fun key hleft => Or.inl (manualRow_of_manualLeft h hfirst hleft)
    · intro malId hblocked hnoExact
      obtain ⟨key', hkey', hleft⟩ := hblocked
      refine hapart malId ⟨key', hkey', manualRow_of_manualLeft h hfirst hleft⟩ ?_
      intro key'' hkey''
      rw [← exactRow_congr hext, hnoExact key'' hkey'']
  obtain ⟨second, hsecond, -⟩ := exists_linkSteps input t'.externalId t'.warehouseLink
  obtain ⟨fresh, hfresh, -⟩ := exists_linkSteps input t.externalId KeyedTable.empty
  obtain ⟨fresh', hfresh', -⟩ := exists_linkSteps input t'.externalId KeyedTable.empty
  refine linksAfter_congr hfirst hsecond (fun key => ?_) key
  rw [row_linkSteps_of_settled hsettled hsecond hfresh',
    row_linkSteps_congr (fun _ => rfl) hext hfresh hfresh',
    row_linkSteps_of_settled h hfirst hfresh]

variable (input) in
/-- **What the links after a run depend on.**  On the links on file only
through the manual rows of dubbed anime; where those are settled, not at all;
and where moreover no manual link takes a match from its anime and the backfill
writes no id that compares differently, a second run leaves the links of the
first. -/
theorem linksAfter_history :
    (∀ ext links links', (∀ key, manualLeft input links' key = manualLeft input links key) →
      ∀ key, linksAfter input ⟨ext, links'⟩ key = linksAfter input ⟨ext, links⟩ key) ∧
    (∀ ext links, ManualSettled input ext links →
      ∀ key, linksAfter input ⟨ext, links⟩ key = linksAfter input ⟨ext, KeyedTable.empty⟩ key) ∧
    (∀ t t', ManualSettled input t.externalId t.warehouseLink →
      ManualLinksApart input t.externalId → runMatcher input t = some t' →
        SameMatchKeys input t.externalId t'.externalId →
          ∀ key, linksAfter input t' key = linksAfter input t key) := by
  refine ⟨?_, ?_, ?_⟩
  · intro ext links links' hleft key
    obtain ⟨built, hbuilt, -⟩ := exists_linkSteps input ext links
    obtain ⟨built', hbuilt', -⟩ := exists_linkSteps input ext links'
    exact linksAfter_congr hbuilt hbuilt'
      (row_linkSteps_congr hleft (fun _ _ _ => rfl) hbuilt hbuilt') key
  · intro ext links hsettled key
    obtain ⟨built, hbuilt, -⟩ := exists_linkSteps input ext links
    obtain ⟨fresh, hfresh, -⟩ := exists_linkSteps input ext KeyedTable.empty
    exact linksAfter_congr hfresh hbuilt (row_linkSteps_of_settled hsettled hbuilt hfresh) key
  · exact fun t t' hsettled hapart hrun hext => runMatcher_again hsettled hapart hrun hext

end Runs

/-- A dubbed anime and a show of that title, which has a tvdb id. -/
def titledShow : MatcherInput where
  anime := KeyedTable.empty.upsert 1 { isEnglishDubbed := true, mainTitle := some "a" } id
  manualLink := KeyedTable.empty
  warehouse :=
    { Warehouse.empty with
      series := upsertSeries KeyedTable.empty "main"
        { id := 7, title := some "A", tvdbId := some "100" } ⟨1, "full", String.toLower⟩ }
  sonarrInstances := ["main"]
  radarrInstances := []
  allowTitleYearMatch := true

/-- The first run matches by title, the second by the id that the first wrote
back; and a manual row outlives its manual link. -/
theorem linksAfter_not_historyFree :
    linksAfter titledShow ⟨KeyedTable.empty, KeyedTable.empty⟩ ⟨1, "main", .sonarrSeries⟩ =
        some (some ⟨7, .titleYear, .medium⟩) ∧
      linksAfter titledShow (afterMatcher titledShow ⟨KeyedTable.empty, KeyedTable.empty⟩)
        ⟨1, "main", .sonarrSeries⟩ = some (some ⟨7, .tvdb, .high⟩) ∧
      linksAfter titledShow
          ⟨KeyedTable.empty, KeyedTable.empty.upsert ⟨1, "main", .sonarrSeries⟩
            ⟨8, .manual, .high⟩ id⟩ ⟨1, "main", .sonarrSeries⟩ =
        some (some ⟨8, .manual, .high⟩) := by
  refine ⟨?_, ?_, ?_⟩
  · decide +kernel
  · decide +kernel
  · decide +kernel

/-- The show with its tvdb id on file, and a second one that an operator has
linked: the manual row is there already. -/
def pinnedShows : MatcherInput :=
  { titledShow with
    anime := titledShow.anime.upsert 2 { isEnglishDubbed := true, mainTitle := some "b" } id
    manualLink := KeyedTable.empty.upsert ⟨2, "main", .sonarrSeries⟩ 8 id
    warehouse :=
      { titledShow.warehouse with
        series := upsertSeries titledShow.warehouse.series "main" { id := 8, title := some "B" }
          ⟨1, "full", String.toLower⟩ } }

def pinnedTables : MatcherTables :=
  ⟨KeyedTable.empty.upsert (1, .tvdb) "100" id,
    KeyedTable.empty.upsert ⟨2, "main", .sonarrSeries⟩ ⟨8, .manual, .high⟩ id⟩

/-- Two of the anime are dubbed. -/
theorem isDubbed_pinnedShows {malId : Int} (h : pinnedShows.isDubbed malId = true) :
    malId = 1 ∨ malId = 2 := by
  by_contra hne
  obtain ⟨hone, htwo⟩ := not_or.mp hne
  rw [MatcherInput.isDubbed, pinnedShows, KeyedTable.row_upsert_of_ne htwo, titledShow,
    KeyedTable.row_upsert_of_ne hone, KeyedTable.row_empty] at h
  cases h

/-- One link is pinned. -/
theorem manualRow_pinnedShows {key : LinkKey} :
    manualRow pinnedShows key ≠ none ↔ key = ⟨2, "main", .sonarrSeries⟩ := by
  by_cases hkey : key = ⟨2, "main", .sonarrSeries⟩
  · subst hkey
    decide
  · simp [manualRow, pinnedShows, hkey, KeyedTable.row_upsert_of_ne hkey]

/-- It is the only manual one that is left. -/
theorem manualLeft_pinnedTables {key : LinkKey}
    (h : manualLeft pinnedShows pinnedTables.warehouseLink key ≠ none) :
    key = ⟨2, "main", .sonarrSeries⟩ := by
  by_contra hkey
  refine h ?_
  rw [manualLeft, pinnedTables, KeyedTable.row_upsert_of_ne hkey, KeyedTable.row_empty,
    Option.filter_none]

/-- The second show has a title-year match as well, where it was linked. -/
theorem manualLinksApart_pinnedShows : ManualLinksApart pinnedShows pinnedTables.externalId := by
  rintro malId ⟨linked, rfl, hmanual⟩ _ ⟨malId, instanceName, arrEntity⟩ rfl hmatch
  rw [manualRow_pinnedShows] at hmanual ⊢
  subst hmanual
  obtain ⟨a, hrow, hentity, hinst⟩ := exists_anime_of_titleYearLink hmatch
  have hlibrary : (pinnedShows.anime.row 2).map AnimeCols.arrEntity = some .sonarrSeries := by
    decide +kernel
  rw [hrow, Option.map_some, hentity, Option.some.injEq] at hlibrary
  obtain rfl : arrEntity = .sonarrSeries := hlibrary
  obtain rfl := List.mem_singleton.mp hinst
  rfl

/-- The second run changes nothing, and neither does the manual row. -/
theorem linksAfter_again_pinnedShows :
    linksAfter pinnedShows pinnedTables ⟨1, "main", .sonarrSeries⟩ =
        some (some ⟨7, .tvdb, .high⟩) ∧
      linksAfter pinnedShows pinnedTables ⟨2, "main", .sonarrSeries⟩ =
        some (some ⟨8, .manual, .high⟩) ∧
      ∀ key,
        linksAfter pinnedShows (afterMatcher pinnedShows pinnedTables) key =
            linksAfter pinnedShows pinnedTables key ∧
          linksAfter pinnedShows pinnedTables key =
            linksAfter pinnedShows ⟨pinnedTables.externalId, KeyedTable.empty⟩ key := by
  have hapart := manualLinksApart_pinnedShows
  have hsettled : ManualSettled pinnedShows pinnedTables.externalId pinnedTables.warehouseLink := by
    constructor
    · exact fun key hleft => Or.inl (manualRow_pinnedShows.mpr (manualLeft_pinnedTables hleft))
    · rintro malId ⟨key, hkey, hleft⟩
      exact hapart malId ⟨key, hkey, manualRow_pinnedShows.mpr (manualLeft_pinnedTables hleft)⟩
  have hsome : (runMatcher pinnedShows pinnedTables).isSome = true := by decide +kernel
  obtain ⟨t', ht'⟩ := Option.isSome_iff_exists.mp hsome
  have hafter : afterMatcher pinnedShows pinnedTables = t' := by
    rw [afterMatcher, ht', Option.getD_some]
  have hsame : SameMatchKeys pinnedShows pinnedTables.externalId
      (afterMatcher pinnedShows pinnedTables).externalId := by
    intro malId site hdub
    rcases isDubbed_pinnedShows hdub with rfl | rfl
    · cases site <;> decide +kernel
    · cases site <;> decide +kernel
  refine ⟨by decide +kernel, by decide +kernel, fun key => ⟨?_, ?_⟩⟩
  · rw [hafter] at hsame ⊢
    exact (linksAfter_history pinnedShows).2.2 pinnedTables t' hsettled hapart ht' hsame key
  · exact (linksAfter_history pinnedShows).2.1 pinnedTables.externalId _ hsettled key

end Nebularr
