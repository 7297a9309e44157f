import Nebularr.IncrementalSync
import Nebularr.RuleSets

/-!
# The sync between two runs

When nothing but tags and monitored flags has changed on the instances, an
incremental sync writes just these back: each listed item's row gets them, and
whatever else a rule asks of the item reads the same as before.
-/

namespace Nebularr

/-! ## What an instance lists -/

/-- What the instances hold of their items, apart from tags and flags. -/
structure ArrShelf where
  movies : String → List MoviePayload
  series : String → List SeriesPayload

/-- A movie with a monitored flag and tags. -/
def MoviePayload.flagged (row : MoviePayload) (item : LiveItem) : MoviePayload :=
  { row with monitored := some item.monitored, tags := item.tags }

/-- A series with a monitored flag and tags. -/
def SeriesPayload.flagged (row : SeriesPayload) (item : LiveItem) : SeriesPayload :=
  { row with monitored := some item.monitored, tags := item.tags }

theorem MoviePayload.id_flagged (row : MoviePayload) (item : LiveItem) :
    (row.flagged item).id = row.id := rfl

theorem SeriesPayload.id_flagged (row : SeriesPayload) (item : LiveItem) :
    (row.flagged item).id = row.id := rfl

section Mirror

variable {π α : Type} (idOf : π → Int) (flagged : π → LiveItem → π) (values : π → WriteTag → α)

/-- A list call: every item with the flag and the tags it has by then. -/
def listedRows (rows : List π) (items : KeyedTable Int LiveItem) : List π :=
  rows.filterMap fun row => (items.row (idOf row)).map (flagged row)

/-- **The warehouse mirrors an instance**: whatever the instance lists has a
live row, written from what the instance holds, if perhaps with another flag
and other tags. -/
def Mirrors (rows : List π) (t : WarehouseTable α) (inst : String)
    (items : KeyedTable Int LiveItem) : Prop :=
  (rows.map idOf).Nodup ∧
    ∀ i item, items.row i = some item → i ≠ 0 ∧ ∃ row ∈ rows, idOf row = i ∧
      ∃ flags tag, t.row ⟨i, inst⟩ = some ⟨values (flagged row flags) tag, false⟩

variable {idOf flagged values}

/-- A refresh gives every listed item its flag and tags, and changes nothing
else of it. -/
theorem Mirrors.row_refreshed (hid : ∀ row item, idOf (flagged row item) = idOf row)
    {rows : List π} {t : WarehouseTable α} {inst : String} {items items' : KeyedTable Int LiveItem}
    (h : Mirrors idOf flagged values rows t inst items)
    (hsame : ∀ i, (items'.row i).isSome = (items.row i).isSome) (tag : WriteTag) {i : Int}
    {item' : LiveItem} (hitem : items'.row i = some item') :
    ∃ row ∈ rows, idOf row = i ∧
      (∃ flags tag', t.row ⟨i, inst⟩ = some ⟨values (flagged row flags) tag', false⟩) ∧
      (t.upsertAllLive (fun row => ⟨idOf row, inst⟩) (fun row => values row tag)
        (fun row _ => values row tag)
        ((listedRows idOf flagged rows items').filter fun row => idOf row ≠ 0)).row ⟨i, inst⟩ =
          some ⟨values (flagged row item') tag, false⟩ := by
  obtain ⟨hnodup, honFile⟩ := h
  have hlisted : (items.row i).isSome = true := by rw [← hsame, hitem]; rfl
  obtain ⟨item, hold⟩ := Option.isSome_iff_exists.mp hlisted
  obtain ⟨hne, row, hrow, rfl, hfile⟩ := honFile i item hold
  refine ⟨row, hrow, rfl, hfile, ?_⟩
  have hmem : flagged row item' ∈
      (listedRows idOf flagged rows items').filter fun row => idOf row ≠ 0 := by
    rw [List.mem_filter, listedRows, List.mem_filterMap]
    refine ⟨⟨row, hrow, by rw [hitem]; rfl⟩, ?_⟩
    rw [hid]
    exact decide_eq_true hne
  have hids : ∀ rows : List π, (listedRows idOf flagged rows items').map idOf =
      (rows.map idOf).filter fun i => (items'.row i).isSome := by
    intro rows
    induction rows with
    | nil => rfl
    | cons row rest ih =>
        unfold listedRows at ih ⊢
        cases hr : items'.row (idOf row) <;> simp [hr, ih, hid]
  have hkeys : (((listedRows idOf flagged rows items').filter fun row => idOf row ≠ 0).map
      fun row => (⟨idOf row, inst⟩ : RowKey)).Nodup := by
    have hlist : ((listedRows idOf flagged rows items').map idOf).Nodup := by
      rw [hids]
      exact hnodup.filter _
    have hinj : ((listedRows idOf flagged rows items').map
        fun row => (⟨idOf row, inst⟩ : RowKey)).Nodup := by
      have hcomp := hlist.map (f := fun i => (⟨i, inst⟩ : RowKey)) fun i i' heq =>
        congrArg RowKey.sourceId heq
      rwa [List.map_map] at hcomp
    exact hinj.sublist (List.filter_sublist.map _)
  have hresult := KeyedTable.row_upsertAllLive_of_mem (fun row => (⟨idOf row, inst⟩ : RowKey))
    (fun row => values row tag) (fun row _ => values row tag) (fun _ _ => rfl) hkeys hmem t
  rwa [hid] at hresult

end Mirror

/-! ## One refresh per instance -/

section Refresh

variable (shelf : ArrShelf)

/-- The warehouse mirrors the instance of a visit. -/
def MirrorsVisit (w : Warehouse) (arr : ArrLive) (v : Visit) : Prop :=
  match v.entity with
  | .movie =>
      Mirrors MoviePayload.id MoviePayload.flagged movieValues (shelf.movies v.instanceName)
        w.movie v.instanceName arr.items
  | .episode =>
      Mirrors SeriesPayload.id SeriesPayload.flagged seriesValues (shelf.series v.instanceName)
        w.series v.instanceName arr.items

variable (tag : Visit → WriteTag) (arr : Visit → ArrLive)

/-- `_write_scope_rows` of what the instance of a visit lists. -/
def refreshVisit (w : Warehouse) (v : Visit) : Warehouse :=
  match v.entity with
  | .movie =>
      writeScopeMovies v.instanceName (tag v) (listedRows MoviePayload.id MoviePayload.flagged
        (shelf.movies v.instanceName) (arr v).items) w
  | .episode =>
      writeScopeSeries v.instanceName (tag v) (listedRows SeriesPayload.id SeriesPayload.flagged
        (shelf.series v.instanceName) (arr v).items) w

/-- The refreshes of several instances. -/
def refreshVisits (visits : List Visit) (w : Warehouse) : Warehouse :=
  visits.foldl (refreshVisit shelf tag arr) w

/-- What a rule reads of an item besides tables no refresh touches: its row. -/
def SameRow (v : Visit) (i : Int) (w w' : Warehouse) : Prop :=
  match v.entity with
  | .movie => w'.movie.row ⟨i, v.instanceName⟩ = w.movie.row ⟨i, v.instanceName⟩
  | .episode => w'.series.row ⟨i, v.instanceName⟩ = w.series.row ⟨i, v.instanceName⟩

variable {v v' : Visit} {w : Warehouse}

theorem refreshVisit_episodes :
    (refreshVisit shelf tag arr w v).episode = w.episode ∧
      (refreshVisit shelf tag arr w v).episodeFile = w.episodeFile ∧
      (refreshVisit shelf tag arr w v).movieFile = w.movieFile := by
  unfold refreshVisit
  cases v.entity <;> exact ⟨rfl, rfl, rfl⟩

/-- A refresh stays with its own instance. -/
theorem sameRow_refreshVisit (h : v' ≠ v) (i : Int) :
    SameRow v i w (refreshVisit shelf tag arr w v') := by
  obtain ⟨entity, inst⟩ := v
  obtain ⟨entity', inst'⟩ := v'
  have hkey : entity' = entity → (⟨i, inst⟩ : RowKey).instanceName ≠ inst' := by
    rintro rfl rfl
    exact h rfl
  cases entity with
  | movie =>
      cases entity' with
      | movie => exact sameElsewhere_upsertMovies _ _ _ _ _ (hkey rfl)
      | episode => rfl
  | episode =>
      cases entity' with
      | movie => rfl
      | episode => exact sameElsewhere_upsertSeriesAll _ _ _ _ _ (hkey rfl)

theorem refreshVisits_episodes (visits : List Visit) :
    (refreshVisits shelf tag arr visits w).episode = w.episode ∧
      (refreshVisits shelf tag arr visits w).episodeFile = w.episodeFile ∧
      (refreshVisits shelf tag arr visits w).movieFile = w.movieFile := by
  unfold refreshVisits
  induction visits generalizing w with
  | nil => exact ⟨rfl, rfl, rfl⟩
  | cons v rest ih =>
      obtain ⟨hepisode, hepisodeFile, hmovieFile⟩ :=
        refreshVisit_episodes shelf tag arr (v := v) (w := w)
      obtain ⟨hrest, hrest', hrest''⟩ := ih (w := refreshVisit shelf tag arr w v)
      exact ⟨hrest.trans hepisode, hrest'.trans hepisodeFile, hrest''.trans hmovieFile⟩

/-- Refreshes of other instances leave a row alone. -/
theorem sameRow_refreshVisits {visits : List Visit} (h : v ∉ visits) (i : Int) :
    SameRow v i w (refreshVisits shelf tag arr visits w) := by
  unfold refreshVisits
  induction visits generalizing w with
  | nil =>
      unfold SameRow
      cases v.entity <;> rfl
  | cons first rest ih =>
      rw [List.mem_cons, not_or] at h
      have hfirst : SameRow v i w (refreshVisit shelf tag arr w first) :=
        sameRow_refreshVisit shelf tag arr (fun heq => h.1 heq.symm) i
      have hrest := ih (w := refreshVisit shelf tag arr w first) h.2
      rw [List.foldl_cons]
      unfold SameRow at hfirst hrest ⊢
      cases hentity : v.entity <;> rw [hentity] at hfirst hrest <;> exact hrest.trans hfirst

/-- What a refresh brings an item of its instance: the flag and the tags that
the instance lists, and nothing that an unflagged scope reads. -/
def Refreshed (v : Visit) (i : Int) (item' : LiveItem) (w w' : Warehouse) : Prop :=
  match v.entity with
  | .movie => ∃ row flags tag tag',
      w.movie.row ⟨i, v.instanceName⟩ =
        some ⟨movieValues (MoviePayload.flagged row flags) tag, false⟩ ∧
      w'.movie.row ⟨i, v.instanceName⟩ =
        some ⟨movieValues (MoviePayload.flagged row item') tag', false⟩
  | .episode => ∃ row flags tag tag',
      w.series.row ⟨i, v.instanceName⟩ =
        some ⟨seriesValues (SeriesPayload.flagged row flags) tag, false⟩ ∧
      w'.series.row ⟨i, v.instanceName⟩ =
        some ⟨seriesValues (SeriesPayload.flagged row item') tag', false⟩

theorem refreshed_refreshVisit {items : ArrLive} (h : MirrorsVisit shelf w items v)
    (hsame : ∀ i, ((arr v).items.row i).isSome = (items.items.row i).isSome) {i : Int}
    {item' : LiveItem} (hitem : (arr v).items.row i = some item') :
    Refreshed v i item' w (refreshVisit shelf tag arr w v) := by
  obtain ⟨entity, inst⟩ := v
  cases entity with
  | movie =>
      have hmovies : Mirrors MoviePayload.id MoviePayload.flagged movieValues (shelf.movies inst)
          w.movie inst items.items := h
      obtain ⟨row, -, -, ⟨flags, tag', hold⟩, hnew⟩ :=
        hmovies.row_refreshed MoviePayload.id_flagged hsame (tag ⟨.movie, inst⟩) hitem
      exact ⟨row, flags, tag', _, hold, hnew⟩
  | episode =>
      have hseries : Mirrors SeriesPayload.id SeriesPayload.flagged seriesValues
          (shelf.series inst) w.series inst items.items := h
      obtain ⟨row, -, -, ⟨flags, tag', hold⟩, hnew⟩ :=
        hseries.row_refreshed SeriesPayload.id_flagged hsame (tag ⟨.episode, inst⟩) hitem
      exact ⟨row, flags, tag', _, hold, hnew⟩

theorem Refreshed.of_sameRow {i : Int} {item' : LiveItem} {w₁ w₂ w₃ : Warehouse}
    (hbefore : SameRow v i w w₁) (h : Refreshed v i item' w₁ w₂) (hafter : SameRow v i w₂ w₃) :
    Refreshed v i item' w w₃ := by
  obtain ⟨entity, inst⟩ := v
  cases entity with
  | movie =>
      obtain ⟨row, flags, tag, tag', hold, hnew⟩ := h
      exact ⟨row, flags, tag, tag', hbefore ▸ hold, Eq.trans hafter hnew⟩
  | episode =>
      obtain ⟨row, flags, tag, tag', hold, hnew⟩ := h
      exact ⟨row, flags, tag, tag', hbefore ▸ hold, Eq.trans hafter hnew⟩

/-- A mirror is about rows only. -/
theorem MirrorsVisit.of_sameRow {items : ArrLive} {w' : Warehouse}
    (h : MirrorsVisit shelf w items v) (hsame : ∀ i, SameRow v i w w') :
    MirrorsVisit shelf w' items v := by
  obtain ⟨entity, inst⟩ := v
  cases entity with
  | movie =>
      obtain ⟨hnodup, honFile⟩ := h
      refine ⟨hnodup, fun i item hitem => ?_⟩
      obtain ⟨hne, row, hrow, hid, flags, tag, hold⟩ := honFile i item hitem
      exact ⟨hne, row, hrow, hid, flags, tag, Eq.trans (hsame i) hold⟩
  | episode =>
      obtain ⟨hnodup, honFile⟩ := h
      refine ⟨hnodup, fun i item hitem => ?_⟩
      obtain ⟨hne, row, hrow, hid, flags, tag, hold⟩ := honFile i item hitem
      exact ⟨hne, row, hrow, hid, flags, tag, Eq.trans (hsame i) hold⟩

/-- **The sync between two runs**, at an instance that was visited. -/
theorem refreshed_refreshVisits {visits : List Visit} (hnodup : visits.Nodup) (hv : v ∈ visits)
    {items : ArrLive} (h : MirrorsVisit shelf w items v)
    (hsame : ∀ i, ((arr v).items.row i).isSome = (items.items.row i).isSome) {i : Int}
    {item' : LiveItem} (hitem : (arr v).items.row i = some item') :
    Refreshed v i item' w (refreshVisits shelf tag arr visits w) := by
  obtain ⟨before, after, rfl⟩ := List.append_of_mem hv
  have hbefore : v ∉ before := fun hmem =>
    (List.nodup_append.mp hnodup).2.2 v hmem v List.mem_cons_self rfl
  have hafter : v ∉ after :=
    (List.nodup_cons.mp (List.nodup_append.mp hnodup).2.1).1
  have hsplit : refreshVisits shelf tag arr (before ++ v :: after) w =
      refreshVisits shelf tag arr after
        (refreshVisit shelf tag arr (refreshVisits shelf tag arr before w) v) := by
    simp [refreshVisits, List.foldl_append]
  have hfirst : ∀ i, SameRow v i w (refreshVisits shelf tag arr before w) := fun i =>
    sameRow_refreshVisits shelf tag arr hbefore i
  rw [hsplit]
  exact (refreshed_refreshVisit shelf tag arr (h.of_sameRow shelf hfirst) hsame hitem).of_sameRow
    (hfirst i) (sameRow_refreshVisits shelf tag arr hafter i)

end Refresh

/-! ## What a rule reads after it -/

/-- The same episodes have aired at two moments. -/
def SameAired (w : Warehouse) (now now' : Int) : Prop :=
  ∀ key e, w.episode.row key = some e → ∀ d, e.cols.airDate = some d → (d ≤ now ↔ d ≤ now')

section Reads

variable {params : RuleParams} {c c' : Catalog} {binds binds' : QueryBinds} {v : Visit} {i : Int}
  {item' : LiveItem}

/-- A rule finds the flag and the tags that the instance lists. -/
theorem Refreshed.flagsOnFile {w w' : Warehouse} (h : Refreshed v i item' w w') :
    flagsOnFile w' v.entity ⟨i, v.instanceName⟩ = some item' := by
  obtain ⟨entity, inst⟩ := v
  cases entity with
  | movie =>
      obtain ⟨row, flags, tag, tag', -, hnew⟩ := h
      simp only at hnew
      simp [Nebularr.flagsOnFile, KeyedTable.cols, hnew, movieValues, MoviePayload.flagged]
  | episode =>
      obtain ⟨row, flags, tag, tag', -, hnew⟩ := h
      simp only at hnew
      simp [Nebularr.flagsOnFile, KeyedTable.cols, hnew, seriesValues, SeriesPayload.flagged]

/-- The episodes that count are the same as long as the same have aired. -/
theorem countingEpisode_congr (hepisode : c'.warehouse.episode = c.warehouse.episode)
    (hinst : binds'.instanceName = binds.instanceName)
    (haired : SameAired c.warehouse binds.now binds'.now) {sid : Int} {key : RowKey}
    {e : SoftRow EpisodeCols} :
    CountingEpisode params c' binds' sid key e ↔ CountingEpisode params c binds sid key e := by
  have hscope : c.warehouse.episode.row key = some e →
      ((∀ f ∈ episodeScopeFragments params.scope binds'.now e, f.Holds) ↔
        ∀ f ∈ episodeScopeFragments params.scope binds.now e, f.Holds) := by
    intro hrow
    have hnow : (Truth.onColumn e.cols.airDate fun d => d ≤ binds'.now) =
        Truth.onColumn e.cols.airDate fun d => d ≤ binds.now := by
      cases hdate : e.cols.airDate with
      | none => rfl
      | some d =>
          have hsame := haired key e hrow d hdate
          simp only [Truth.onColumn, Option.elim_some, hsame]
    rw [episodeScopeFragments, episodeScopeFragments, hnow]
  rw [countingEpisode_iff, countingEpisode_iff, hepisode, hinst]
  constructor
  · rintro ⟨hrow, hsid, hkey, hholds⟩
    exact ⟨hrow, hsid, hkey, (hscope hrow).mp hholds⟩
  · rintro ⟨hrow, hsid, hkey, hholds⟩
    exact ⟨hrow, hsid, hkey, (hscope hrow).mpr hholds⟩

/-- **Whatever else a rule asks of an item reads as before.** -/
theorem Refreshed.fits_iff (h : Refreshed v i item' c.warehouse c'.warehouse)
    (hmal : c'.mal = c.mal) (hlower : c'.lower = c.lower)
    (hepisode : c'.warehouse.episode = c.warehouse.episode)
    (hepisodeFile : c'.warehouse.episodeFile = c.warehouse.episodeFile)
    (hmovieFile : c'.warehouse.movieFile = c.warehouse.movieFile)
    (hinst : binds.instanceName = v.instanceName) (hinst' : binds'.instanceName = v.instanceName)
    (haired : SameAired c.warehouse binds.now binds'.now) (sense : Sense) :
    Fits params c' binds' v.entity sense i ↔ Fits params c binds v.entity sense i := by
  obtain ⟨entity, inst⟩ := v
  simp only at hinst hinst'
  cases entity with
  | movie =>
      obtain ⟨row, flags, tag, tag', hold, hnew⟩ := h
      simp only at hold hnew
      have hscope : movieScopeFragments c.lower params.scope.unflagged c.mal [] ⟨i, inst⟩
          (movieValues (row.flagged item') tag') =
          movieScopeFragments c.lower params.scope.unflagged c.mal [] ⟨i, inst⟩
            (movieValues (row.flagged flags) tag) := rfl
      have hfiles : movieFiles c'.warehouse = movieFiles c.warehouse := by
        funext key
        rw [movieFiles, movieFiles, hmovieFile]
      simp only [Fits, hinst, hinst', hold, hnew, hmal, hlower, hfiles, Option.some.injEq,
        exists_eq_left', hscope]
      rfl
  | episode =>
      obtain ⟨row, flags, tag, tag', hold, hnew⟩ := h
      simp only at hold hnew
      have hscope : seriesScopeFragments c.lower params.scope.unflagged []
          (seriesValues (row.flagged item') tag') =
          seriesScopeFragments c.lower params.scope.unflagged []
            (seriesValues (row.flagged flags) tag) := rfl
      have hseries : SeriesFits params c' binds' i ↔ SeriesFits params c binds i := by
        simp only [SeriesFits, hinst, hinst', hold, hnew, hmal, hlower, Option.some.injEq,
          exists_eq_left', hscope]
      have hcounts : ∀ key e, CountingEpisode params c' binds' i key e ↔
          CountingEpisode params c binds i key e := fun key e =>
        countingEpisode_congr hepisode (hinst'.trans hinst.symm) haired
      have hfiles : episodeFiles c'.warehouse = episodeFiles c.warehouse := by
        funext key e
        rw [episodeFiles, episodeFiles, hepisodeFile]
      have hfailing : HasFailingEpisode params c' binds' i ↔
          HasFailingEpisode params c binds i := by
        simp only [HasFailingEpisode, hcounts, hfiles, hlower]
      cases sense with
      | conforming => simp only [Fits, hseries, hcounts, hfailing]
      | nonConforming => simp only [Fits, hseries, hfailing]

end Reads

end Nebularr
