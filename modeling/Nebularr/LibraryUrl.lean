import Mathlib.Data.List.TakeWhile
import Nebularr.TextEncodings

/-!
# The library's state in its URL

`serializeLibraryState` and the two effects of `LibraryPage` that keep the
mode, the filters and the selected show in step with the query of the URL.

Only what differs from the default is written, and the effect that reads the
URL does nothing where the URL has no parameters, or is what the other effect
wrote last.
-/

namespace Nebularr

/-! ## The state -/

inductive LibraryMode
  | drilldown | allEpisodes | movies
deriving DecidableEq, Repr

inductive SortDir
  | asc | desc
deriving DecidableEq, Repr

/-- Numbers with what the page does with them, `-0` and `0` being one number as
they are for `===`.  `toText` is `String(n)`, `ofText` is `Number(text)`. -/
structure JsNumbers (N : Type) where
  toText : N → String
  ofText : String → N
  isFinite : N → Bool
  truthy : N → Bool
  positive : N → Bool
  nonNegative : N → Bool
  zero : N
  fifty : N
  falsy_zero : truthy zero = false
  /-- A number is the one its text is closest to. -/
  ofText_toText : ∀ n, ofText (toText n) = n
  bar_not_mem_toText : ∀ n, '|' ∉ (toText n).toList
  truthy_of_positive : ∀ n, positive n = true → truthy n = true
  eq_zero_of_nonNegative : ∀ n, nonNegative n = true → truthy n = false → n = zero

section State

variable (N : Type)

structure LibraryFilters where
  search : String
  instanceName : String
  limit : N
  offset : N
  sortBy : String
  sortDir : SortDir
  showSeason : Option N
deriving DecidableEq

structure SelectedShow where
  id : N
  instanceName : String
  title : String
deriving DecidableEq

/-- What a URL stands for. -/
structure LibraryView where
  mode : LibraryMode
  filters : LibraryFilters N
  selectedShow : Option (SelectedShow N)
deriving DecidableEq

/-- The page's state, with `lastWrittenSearch`. -/
structure LibraryPage where
  view : LibraryView N
  lastWrittenSearch : Option (List UInt8)

end State

/-! ## State to URL -/

def LibraryMode.text : LibraryMode → String
  | .drilldown => "drilldown"
  | .allEpisodes => "all-episodes"
  | .movies => "movies"

def SortDir.text : SortDir → String
  | .asc => "asc"
  | .desc => "desc"

/-- `params.set` for each name that has a value, the names being different. -/
def setParams (entries : List (String × Option String)) : List (String × String) :=
  entries.filterMap fun entry => entry.2.map (Prod.mk entry.1)

section Serialize

variable {N : Type} [DecidableEq N] (num : JsNumbers N)

/-- `${show.id}|${show.instance}|${show.title}`. -/
def showText (selected : SelectedShow N) : String :=
  num.toText selected.id ++ "|" ++ selected.instanceName ++ "|" ++ selected.title

/-- `DEFAULT_LIBRARY_FILTERS`. -/
def defaultLibraryFilters : LibraryFilters N := ⟨"", "", num.fifty, num.zero, "title", .asc, none⟩

/-- The parameters that `serializeLibraryState` may set. -/
def libraryParams (view : LibraryView N) : List (String × Option String) :=
  [("mode", if view.mode ≠ .drilldown then some view.mode.text else none),
    ("q", if view.filters.search ≠ "" then some view.filters.search else none),
    ("inst", if view.filters.instanceName ≠ "" then some view.filters.instanceName else none),
    ("limit", if view.filters.limit ≠ num.fifty then some (num.toText view.filters.limit)
      else none),
    ("offset", if num.truthy view.filters.offset then some (num.toText view.filters.offset)
      else none),
    ("sort", if view.filters.sortBy ≠ "title" then some view.filters.sortBy else none),
    ("dir", if view.filters.sortDir ≠ .asc then some view.filters.sortDir.text else none),
    ("season", view.filters.showSeason.map num.toText),
    ("show", if view.mode = .drilldown then view.selectedShow.map (showText num) else none)]

/-- `serializeLibraryState`. -/
def serializeLibraryState (view : LibraryView N) : List (String × String) :=
  setParams (libraryParams num view)

/-- The effect that writes the URL: the page and the URL's parameters after it. -/
def stateToUrl (page : LibraryPage N) (searchParams : List (String × String)) :
    LibraryPage N × List (String × String) :=
  let canonical := serializeParams (serializeLibraryState num page.view)
  if canonical = serializeParams searchParams then (page, searchParams)
  else ({ page with lastWrittenSearch := some canonical }, serializeLibraryState num page.view)

/-! ## URL to state -/

/-- `n || otherwise`. -/
def orElseNumber (n otherwise : N) : N := if num.truthy n then n else otherwise

/-- The show that a parameter names, if its id is finite and it has an instance. -/
def parseShow (text : String) : Option (SelectedShow N) :=
  match text.toList.splitOn '|' with
  | idPart :: instancePart :: titleParts =>
      let id := num.ofText (String.ofList idPart)
      if num.isFinite id = true ∧ instancePart ≠ [] then
        some ⟨id, String.ofList instancePart, String.ofList (['|'].intercalate titleParts)⟩
      else none
  | _ => none

/-- The view that the effect sets from the parameters; `current` is where a part
of it is not set. -/
def readView (searchParams : List (String × String)) (current : LibraryView N) : LibraryView N where
  mode :=
    match searchParams.lookup "mode" with
    | none => .drilldown
    | some "drilldown" => .drilldown
    | some "all-episodes" => .allEpisodes
    | some "movies" => .movies
    | some _ => current.mode
  selectedShow :=
    match searchParams.lookup "show" with
    | none => none
    | some text => if text = "" then none else (parseShow num text).or current.selectedShow
  filters :=
    { search := (searchParams.lookup "q").getD ""
      instanceName := (searchParams.lookup "inst").getD ""
      limit := orElseNumber num
        (((searchParams.lookup "limit").map num.ofText).getD num.fifty) num.fifty
      offset := orElseNumber num
        (((searchParams.lookup "offset").map num.ofText).getD num.zero) num.zero
      sortBy := (searchParams.lookup "sort").getD "title"
      sortDir := if searchParams.lookup "dir" = some "desc" then .desc else .asc
      showSeason := (searchParams.lookup "season").map num.ofText }

/-- The effect that reads the URL. -/
def urlToState (searchParams : List (String × String)) (page : LibraryPage N) : LibraryPage N :=
  if some (serializeParams searchParams) = page.lastWrittenSearch ∨ searchParams = [] then page
  else { page with view := readView num searchParams page.view }

end Serialize

/-! ## Reading back what was written -/

section RoundTrip

variable {N : Type} [DecidableEq N] {num : JsNumbers N}

theorem setParams_cons_none (name : String) (rest : List (String × Option String)) :
    setParams ((name, none) :: rest) = setParams rest := rfl

theorem setParams_cons_some (name value : String) (rest : List (String × Option String)) :
    setParams ((name, some value) :: rest) = (name, value) :: setParams rest := rfl

/-- A parameter is found if it was set. -/
theorem lookup_setParams {entries : List (String × Option String)}
    (hnames : (entries.map Prod.fst).Nodup) (name : String) :
    (setParams entries).lookup name = (entries.lookup name).join := by
  induction entries with
  | nil => rfl
  | cons entry rest ih =>
      obtain ⟨first, value⟩ := entry
      rw [List.map_cons, List.nodup_cons] at hnames
      by_cases hname : name = first
      · subst hname
        rw [List.lookup_cons_self, Option.join_some]
        cases value with
        | none =>
            have hnot : rest.lookup name = none := by
              rw [List.lookup_eq_none_iff]
              intro other hother
              rw [bne_iff_ne]
              exact fun heq => hnames.1 (List.mem_map.mpr ⟨other, hother, heq.symm⟩)
            rw [setParams_cons_none, ih hnames.2, hnot]
            rfl
        | some value => rw [setParams_cons_some, List.lookup_cons_self]
      · rw [List.lookup_cons, beq_false_of_ne hname]
        cases value with
        | none => rw [setParams_cons_none, ih hnames.2]
        | some value =>
            rw [setParams_cons_some, List.lookup_cons, beq_false_of_ne hname, ih hnames.2]

theorem setParams_eq_nil_iff {entries : List (String × Option String)} :
    setParams entries = [] ↔ ∀ entry ∈ entries, entry.2 = none := by
  rw [setParams, List.filterMap_eq_nil_iff]
  exact forall₂_congr fun _ _ => Option.map_eq_none_iff

theorem nodup_libraryParams (view : LibraryView N) :
    ((libraryParams num view).map Prod.fst).Nodup := by
  simp [libraryParams]

/-- What a text starts with, and what is left, split at the bars. -/
theorem splitOn_bar (text : List Char) :
    ∃ more, text.splitOn '|' = text.takeWhile (· != '|') :: more ∧ ('|' ∉ text → more = []) := by
  induction text with
  | nil => exact ⟨[], rfl, fun _ => rfl⟩
  | cons c rest ih =>
      obtain ⟨more, hrest, hmore⟩ := ih
      rw [List.splitOn_cons_eq_if_modifyHead]
      by_cases hbar : c = '|'
      · subst hbar
        refine ⟨rest.splitOn '|', ?_, fun hnot => absurd List.mem_cons_self hnot⟩
        rw [List.takeWhile_cons_of_neg (by decide)]
        rfl
      · refine ⟨more, ?_, fun hnot => hmore fun hin => hnot (List.mem_cons_of_mem c hin)⟩
        rw [if_neg (by simpa using hbar), hrest, List.takeWhile_cons_of_pos (by simpa using hbar)]
        rfl

/-- The part of an instance name that is read back as the instance. -/
def SelectedShow.instancePart (selected : SelectedShow N) : List Char :=
  selected.instanceName.toList.takeWhile (· != '|')

omit [DecidableEq N] in
/-- **A show, read back**: itself, if a first part of its instance name is read
and is all of it; and what is selected already, if none is read. -/
theorem parseShow_showText_or_eq_iff {selected : SelectedShow N}
    {current : Option (SelectedShow N)} :
    (parseShow num (showText num selected)).or current = some selected ↔
      if num.isFinite selected.id = true ∧ selected.instancePart ≠ [] then
        '|' ∉ selected.instanceName.toList
      else current = some selected := by
  obtain ⟨more, hinstance, hmore⟩ := splitOn_bar selected.instanceName.toList
  have htext : (showText num selected).toList =
      (num.toText selected.id).toList ++
        '|' :: (selected.instanceName.toList ++ '|' :: selected.title.toList) := by
    simp [showText]
  have hsplit : (showText num selected).toList.splitOn '|' =
      (num.toText selected.id).toList :: selected.instancePart ::
        (more ++ selected.title.toList.splitOn '|') := by
    rw [htext, List.splitOn_append_cons_self_of_not_mem (num.bar_not_mem_toText _),
      List.splitOn_append_cons_self, hinstance]
    rfl
  rw [parseShow, hsplit]
  simp only [String.ofList_toList, num.ofText_toText]
  by_cases hread : num.isFinite selected.id = true ∧ selected.instancePart ≠ []
  · rw [if_pos hread, if_pos hread, Option.some_or, Option.some.injEq]
    constructor
    · intro hsame hbar
      have hpart : String.ofList selected.instancePart = selected.instanceName :=
        congrArg SelectedShow.instanceName hsame
      rw [← hpart, String.toList_ofList] at hbar
      exact absurd (List.mem_takeWhile_imp hbar) (by decide)
    · intro hbar
      have hpart : selected.instancePart = selected.instanceName.toList :=
        List.takeWhile_eq_self_iff.mpr fun c hc => bne_iff_ne.mpr fun heq => hbar (heq ▸ hc)
      rw [hpart, hmore hbar, List.nil_append, List.intercalate_splitOn]
      simp only [String.ofList_toList]
  · rw [if_neg hread, if_neg hread, Option.none_or]

/-! ## Navigating to a view -/

/-- `drilldown` with the default filters and no show. -/
def defaultView (num : JsNumbers N) : LibraryView N := ⟨.drilldown, defaultLibraryFilters num, none⟩

/-- A view that a URL is made of: a positive limit, an offset that is not
negative, and a show in the drilldown only. -/
structure LibraryView.Valid (num : JsNumbers N) (view : LibraryView N) : Prop where
  limit : num.positive view.filters.limit = true
  offset : num.nonNegative view.filters.offset = true
  showMode : view.selectedShow ≠ none → view.mode = .drilldown

/-- Only the default view has an empty URL. -/
theorem serializeLibraryState_eq_nil_iff {view : LibraryView N} (hview : view.Valid num) :
    serializeLibraryState num view = [] ↔ view = defaultView num := by
  rw [serializeLibraryState, setParams_eq_nil_iff]
  constructor
  · intro h
    obtain ⟨mode, ⟨search, instanceName, limit, offset, sortBy, sortDir, showSeason⟩,
        selectedShow⟩ := view
    simp only [libraryParams, List.forall_mem_cons, List.not_mem_nil, false_imp_iff, implies_true,
      and_true,
      ite_eq_right_iff, reduceCtorEq, imp_false, not_not, Option.map_eq_none_iff,
        Bool.not_eq_true] at h
    obtain ⟨rfl, rfl, rfl, rfl, hoffset, rfl, rfl, rfl, hshow⟩ := h
    obtain rfl : offset = num.zero := num.eq_zero_of_nonNegative offset hview.offset hoffset
    rw [hshow rfl]
    rfl
  · intro h
    rw [h]
    simp [libraryParams, defaultView, defaultLibraryFilters, num.falsy_zero]

/-- A parameter of the URL. -/
theorem lookup_serializeLibraryState (view : LibraryView N) (name : String) :
    (serializeLibraryState num view).lookup name = ((libraryParams num view).lookup name).join :=
  lookup_setParams (nodup_libraryParams view) name

/-- The filters, read back. -/
theorem filters_readView {view : LibraryView N} (hview : view.Valid num) (current : LibraryView N) :
    (readView num (serializeLibraryState num view) current).filters = view.filters := by
  obtain ⟨mode, ⟨search, instanceName, limit, offset, sortBy, sortDir, showSeason⟩,
      selectedShow⟩ := view
  have hlimit := num.truthy_of_positive limit hview.limit
  have hoffset := num.eq_zero_of_nonNegative offset hview.offset
  simp only [readView, lookup_serializeLibraryState, LibraryFilters.mk.injEq]
  refine ⟨?_, ?_, ?_, ?_, ?_, ?_, ?_⟩
  · show (if search ≠ "" then some search else none).getD "" = search
    by_cases h : search = "" <;> simp [h]
  · show (if instanceName ≠ "" then some instanceName else none).getD "" = instanceName
    by_cases h : instanceName = "" <;> simp [h]
  · show orElseNumber num (((if limit ≠ num.fifty then some (num.toText limit) else none).map
      num.ofText).getD num.fifty) num.fifty = limit
    by_cases h : limit = num.fifty <;> simp [h, orElseNumber, hlimit, num.ofText_toText]
  · show orElseNumber num
        (((if num.truthy offset = true then some (num.toText offset) else none).map
      num.ofText).getD num.zero) num.zero = offset
    cases h : num.truthy offset with
    | false => simp [orElseNumber, hoffset h, num.falsy_zero]
    | true => simp [orElseNumber, num.ofText_toText, h]
  · show (if sortBy ≠ "title" then some sortBy else none).getD "title" = sortBy
    by_cases h : sortBy = "title" <;> simp [h]
  · cases sortDir <;> rfl
  · show (showSeason.map num.toText).map num.ofText = showSeason
    cases showSeason with
    | none => rfl
    | some season => exact congrArg some (num.ofText_toText season)

theorem mode_readView (view current : LibraryView N) :
    (readView num (serializeLibraryState num view) current).mode = view.mode := by
  obtain ⟨mode, filters, selectedShow⟩ := view
  simp only [readView, lookup_serializeLibraryState]
  cases mode <;> rfl

omit [DecidableEq N] in
theorem showText_ne_empty (selected : SelectedShow N) : showText num selected ≠ "" := by
  intro hempty
  have hbar : '|' ∈ (showText num selected).toList := by simp [showText]
  rw [hempty] at hbar
  cases hbar

/-- Whether the show of a view comes back over what is selected. -/
def ShowComesBack (num : JsNumbers N) (current : Option (SelectedShow N)) :
    Option (SelectedShow N) → Prop
  | none => True
  | some selected =>
      if num.isFinite selected.id = true ∧ selected.instancePart ≠ [] then
        '|' ∉ selected.instanceName.toList
      else current = some selected

theorem selectedShow_readView_iff {view current : LibraryView N} (hview : view.Valid num) :
    (readView num (serializeLibraryState num view) current).selectedShow = view.selectedShow ↔
      ShowComesBack num current.selectedShow view.selectedShow := by
  obtain ⟨mode, filters, selectedShow⟩ := view
  cases selectedShow with
  | none =>
      refine iff_of_true ?_ trivial
      simp only [readView, lookup_serializeLibraryState]
      cases mode <;> rfl
  | some selected =>
      obtain rfl : mode = .drilldown := hview.showMode (Option.some_ne_none selected)
      have hshow : ((libraryParams num ⟨.drilldown, filters, some selected⟩).lookup "show").join =
          some (showText num selected) := rfl
      simp only [readView, lookup_serializeLibraryState, hshow]
      rw [if_neg (showText_ne_empty selected), parseShow_showText_or_eq_iff]
      rfl

/-- **Navigating to a view.**  The page has it afterwards exactly if it had it
already, where its URL is empty or is what the page wrote last, and else if the
show comes back. -/
theorem urlToState_eq_iff {view : LibraryView N} (lossy : List UInt8 → String)
    (page : LibraryPage N) (hview : view.Valid num) :
    (urlToState num
      (parseParams lossy (serializeParams (serializeLibraryState num view))) page).view =
        view ↔
      if view = defaultView num ∨
          page.lastWrittenSearch = some (serializeParams (serializeLibraryState num view)) then
        page.view = view
      else ShowComesBack num page.view.selectedShow view.selectedShow := by
  rw [parseParams_serializeParams]
  by_cases hstays : view = defaultView num ∨
      page.lastWrittenSearch = some (serializeParams (serializeLibraryState num view))
  · have hexit : some (serializeParams (serializeLibraryState num view)) = page.lastWrittenSearch ∨
        serializeLibraryState num view = [] := by
      rw [serializeLibraryState_eq_nil_iff hview]
      exact hstays.symm.imp_left Eq.symm
    rw [if_pos hstays, urlToState, if_pos hexit]
  · have hreads :
        ¬ (some (serializeParams (serializeLibraryState num view)) = page.lastWrittenSearch ∨
        serializeLibraryState num view = []) := by
      rw [serializeLibraryState_eq_nil_iff hview]
      exact fun h => hstays (h.symm.imp_right Eq.symm)
    rw [if_neg hstays, urlToState, if_neg hreads, ← selectedShow_readView_iff hview]
    have hmode : (readView num (serializeLibraryState num view) page.view).mode = view.mode :=
      mode_readView view page.view
    have hfilters := filters_readView hview page.view
    constructor
    · exact congrArg LibraryView.selectedShow
    · intro hshow
      obtain ⟨mode, filters, selectedShow⟩ := view
      exact congr (congr (congrArg LibraryView.mk hmode) hfilters) hshow

/-- **The two effects do not chase each other**: what the one has written, both
leave alone. -/
theorem effects_settle {page : LibraryPage N} {searchParams : List (String × String)}
    (hmoved : serializeParams (serializeLibraryState num page.view) ≠
      serializeParams searchParams) :
    let written := stateToUrl num page searchParams
    urlToState num written.2 written.1 = written.1 ∧
      stateToUrl num written.1 written.2 = written := by
  simp only [stateToUrl, if_neg hmoved]
  refine ⟨?_, ?_⟩
  · rw [urlToState, if_pos (Or.inl rfl)]
  · rw [if_pos trivial]

end RoundTrip

/-- Natural numbers, for examples. -/
def natNumbers : JsNumbers ℕ where
  toText := Nat.repr
  ofText text := Nat.ofDigitChars 10 text.toList 0
  isFinite _ := true
  truthy n := n != 0
  positive n := decide (0 < n)
  nonNegative _ := true
  zero := 0
  fifty := 50
  falsy_zero := rfl
  ofText_toText n := by rw [Nat.toList_repr, Nat.ofDigitChars_ten_toDigits]
  bar_not_mem_toText n hbar := by
    rw [Nat.toList_repr] at hbar
    exact absurd (Nat.isDigit_of_mem_toDigits (by decide) (by decide) hbar) (by decide)
  truthy_of_positive n hn := by
    rw [bne_iff_ne]
    exact Nat.ne_of_gt (of_decide_eq_true hn)
  eq_zero_of_nonNegative n _ hn := by simpa using hn

/-- The movies of one instance, a hundred at a time. -/
def moviesView : LibraryView ℕ := ⟨.movies, ⟨"", "main", 100, 0, "title", .asc, none⟩, none⟩

theorem urlToState_movies :
    (urlToState natNumbers (parseParams (fun _ => "") (serializeParams
      (serializeLibraryState natNumbers moviesView))) ⟨defaultView natNumbers, none⟩).view =
        moviesView :=
  (urlToState_eq_iff (fun _ => "") ⟨defaultView natNumbers, none⟩
    ⟨rfl, rfl, fun h => absurd rfl h⟩).mpr
    (by
      rw [if_neg]
      · trivial
      · decide)

/-- From the movies the URL of the default view leads nowhere. -/
theorem not_urlToState_default :
    ¬ ∀ (page : LibraryPage ℕ) (view : LibraryView ℕ), view.Valid natNumbers →
        (urlToState natNumbers (parseParams (fun _ => "") (serializeParams
          (serializeLibraryState natNumbers view))) page).view = view := by
  intro hall
  have hview := hall ⟨moviesView, none⟩ (defaultView natNumbers) ⟨rfl, rfl, fun h => absurd rfl h⟩
  have hparams : serializeLibraryState natNumbers (defaultView natNumbers) = [] := by decide
  rw [hparams, parseParams_serializeParams, urlToState, if_pos (Or.inr rfl)] at hview
  exact absurd hview (by decide)

end Nebularr
