import Mathlib.Data.List.Basic

/-!
# Automation rules

A rule says which items it looks at (`scope`), what they should be like
(`require`), and what to do with those that are not, or that are (`actions`).
The checks that reject a rule are the fields of `AcceptedRule`, so a rule that
can run is one that passed them; a search that applies to conforming items,
which the schema rejects too, cannot be written down.
-/

namespace Nebularr

/-- What a rule's query ranges over: movies on Radarr, episodes on Sonarr. -/
inductive Entity
  | movie
  | episode
deriving DecidableEq, Repr

/-- `scope.media`. -/
inductive Media
  | movies
  | series
  | both
deriving DecidableEq, Repr

/-- `RuleScope`, after its normalising validators. -/
structure RuleScope where
  media : Media := .both
  instances : List String := []
  animeOnly : Bool := false
  seriesType : Option String := none
  genresAny : List String := []
  tagsAny : List String := []
  rootFoldersAny : List String := []
  monitoredOnly : Bool := true
  seriesStatusAny : List String := []
  includeSpecials : Bool := true
  includeUnmonitoredEpisodes : Bool := false
deriving DecidableEq, Repr

/-- `RuleRequire`. -/
structure RuleRequire where
  audioLanguageAny : List String := []
  subtitleLanguageAny : List String := []
  resolutionMin : Option Int := none
  videoCodecAny : List String := []
  qualityAny : List String := []
deriving DecidableEq, Repr

/-- `RuleRequire.is_empty`. -/
def RuleRequire.isEmpty (require : RuleRequire) : Bool :=
  require.audioLanguageAny.isEmpty && require.subtitleLanguageAny.isEmpty &&
    require.resolutionMin.isNone && require.videoCodecAny.isEmpty && require.qualityAny.isEmpty

/-- The set an action applies to (`when`). -/
inductive Sense
  | nonConforming
  | conforming
deriving DecidableEq, Repr

/-- `RuleAction`.  A search has no sense of its own: it applies to
non-conforming items only. -/
inductive RuleAction
  | searchMissing
  | searchUpgrade
  | tag (label : String) (sense : Sense)
  | setMonitored (value : Bool) (sense : Sense)
deriving DecidableEq, Repr

namespace RuleAction

/-- `action.when`. -/
def sense : RuleAction → Sense
  | searchMissing => .nonConforming
  | searchUpgrade => .nonConforming
  | tag _ sense => sense
  | setMonitored _ sense => sense

/-- `action.type.startswith("search_")`. -/
def isSearch : RuleAction → Bool
  | searchMissing => true
  | searchUpgrade => true
  | tag _ _ => false
  | setMonitored _ _ => false

end RuleAction

/-- `RuleOptions`. -/
structure RuleOptions where
  malDubGate : Bool := false
  newDubOnly : Bool := false
deriving DecidableEq, Repr

/-- `RuleParams`, before `_check`. -/
structure RuleParams where
  scope : RuleScope := {}
  require : RuleRequire := {}
  actions : List RuleAction := []
  options : RuleOptions := {}
deriving DecidableEq, Repr

namespace RuleParams

variable (params : RuleParams)

/-- `any(a.type == "search_missing" for a in params.actions)`. -/
def wantsMissing : Bool := decide (RuleAction.searchMissing ∈ params.actions)

/-- `any(a.type == "search_upgrade" for a in params.actions)`. -/
def wantsUpgrade : Bool := decide (RuleAction.searchUpgrade ∈ params.actions)

/-- `any(a.type.startswith("search_") for a in params.actions)`. -/
def hasSearch : Bool := params.actions.any RuleAction.isSearch

/-- `params.model_copy(update={"actions": [… not a.type.startswith("search_")]})`. -/
def withoutSearch : RuleParams :=
  { params with actions := params.actions.filter fun action => !action.isSearch }

/-- `primary_sense`: the set the rule is about. -/
def primarySense : Sense :=
  if params.actions.any fun action => action.sense = .nonConforming then .nonConforming
  else .conforming

theorem hasSearch_eq : params.hasSearch = (params.wantsMissing || params.wantsUpgrade) := by
  rw [Bool.eq_iff_iff]
  simp only [hasSearch, wantsMissing, wantsUpgrade, List.any_eq_true, Bool.or_eq_true,
    decide_eq_true_eq]
  constructor
  · rintro ⟨action, hmem, hsearch⟩
    cases action with
    | searchMissing => exact Or.inl hmem
    | searchUpgrade => exact Or.inr hmem
    | tag _ _ => cases hsearch
    | setMonitored _ _ => cases hsearch
  · rintro (hmem | hmem)
    · exact ⟨_, hmem, rfl⟩
    · exact ⟨_, hmem, rfl⟩

@[simp] theorem wantsMissing_withoutSearch : params.withoutSearch.wantsMissing = false := by
  simp [wantsMissing, withoutSearch, RuleAction.isSearch]

@[simp] theorem wantsUpgrade_withoutSearch : params.withoutSearch.wantsUpgrade = false := by
  simp [wantsUpgrade, withoutSearch, RuleAction.isSearch]

/-- A rule that searches is about the failing set. -/
theorem primarySense_of_hasSearch (h : params.hasSearch = true) :
    params.primarySense = .nonConforming := by
  obtain ⟨action, hmem, hsearch⟩ := List.any_eq_true.mp h
  have hsense : action.sense = .nonConforming := by
    cases action with
    | searchMissing => rfl
    | searchUpgrade => rfl
    | tag _ _ => cases hsearch
    | setMonitored _ _ => cases hsearch
  rw [primarySense, if_pos]
  exact List.any_eq_true.mpr ⟨action, hmem, decide_eq_true hsense⟩

end RuleParams

/-- A rule that passed validation; each field is a check of the schema. -/
structure AcceptedRule extends RuleParams where
  actsSomehow : actions ≠ []
  upgradeNamesTarget : toRuleParams.wantsUpgrade = true → require.isEmpty = false
  newDubIsGated : options.newDubOnly = true → options.malDubGate = true
  statusOfSeries : scope.seriesStatusAny ≠ [] → scope.media ≠ .movies
  tagsAreLabelled : ∀ label sense, RuleAction.tag label sense ∈ actions →
    ∃ c ∈ label.toList, c.isWhitespace = false

theorem defaultOptions_gated :
    ({} : RuleOptions).newDubOnly = true → ({} : RuleOptions).malDubGate = true := by
  decide

theorem defaultScope_status :
    ({} : RuleScope).seriesStatusAny ≠ [] → ({} : RuleScope).media ≠ .movies := by
  decide

/-- `TEMPLATES["missing-hunter"]`. -/
def missingHunter : AcceptedRule where
  actions := [.searchMissing]
  actsSomehow := by decide
  upgradeNamesTarget := by decide
  newDubIsGated := by decide
  statusOfSeries := by decide
  tagsAreLabelled := by simp

/-- `TEMPLATES["new-dub-watcher"]`. -/
def newDubWatcher : AcceptedRule where
  scope := { animeOnly := true }
  require := { audioLanguageAny := ["english", "eng"] }
  actions := [.searchMissing, .searchUpgrade]
  options := { malDubGate := true, newDubOnly := true }
  actsSomehow := by decide
  upgradeNamesTarget := by decide
  newDubIsGated := by decide
  statusOfSeries := by decide
  tagsAreLabelled := by simp

/-- `TEMPLATES["movie-done-unmonitor"]`. -/
def movieDoneUnmonitor : AcceptedRule where
  scope := { media := .movies }
  require := { audioLanguageAny := ["english", "eng"], resolutionMin := some 1080 }
  actions := [.tag "retired-complete" .conforming, .setMonitored false .conforming]
  actsSomehow := by decide
  upgradeNamesTarget := by decide
  newDubIsGated := by decide
  statusOfSeries := by decide
  tagsAreLabelled := by simp

/-- `_targets`: Radarr's movies first, then Sonarr's episodes. -/
def RuleParams.targets (params : RuleParams) : List Entity :=
  (if params.scope.media = .movies ∨ params.scope.media = .both then [.movie] else []) ++
    (if params.scope.media = .series ∨ params.scope.media = .both then [.episode] else [])

end Nebularr
