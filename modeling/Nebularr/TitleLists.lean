import Nebularr.DistinctOn
import Nebularr.PythonValues

/-!
# The titles of an anime

The primary title of an anime and its other titles: taken from what MAL answers,
taken from what Jikan answers, and merged with those that are stored.  Titles are
alike if they are in lower case.

The values are decoded JSON; `str.lower` and the reader of JSON texts are
parameters.
-/

namespace Nebularr

/-- `str.lower`, of which it only matters that it leaves something of every text
but the empty one. -/
structure LowerCase where
  lower : String → String
  lower_eq_empty : ∀ text, lower text = "" ↔ text = ""

/-- What `json.loads` does: it decodes a value, raises a `JSONDecodeError`, or raises
something else, as for a number of too many digits. -/
inductive JsonReading (F : Type)
  | value (v : PyValue F)
  | decodeError
  | raised

variable {F : Type} (num : PyNumbers F) (cs : LowerCase)

/-! ## The source -/

section Mal

/-- `str(value or "").strip() or None`. -/
def titleText (value : Option (PyValue F)) : Option String :=
  let text :=
    match value with
    | some v => if num.truthy v then num.stripped v else ""
    | none => ""
  if text = "" then none else some text

/-- `en`, `ja` and `synonyms` of a response. -/
def alternativeTitles (response : List (String × PyValue F)) :
    Option String × Option String × List String :=
  match response.lookup "alternative_titles" with
  | some (.obj alt) =>
      (titleText num (alt.lookup "en"), titleText num (alt.lookup "ja"),
        match alt.lookup "synonyms" with
        | some (.arr items) => num.strippedTexts items
        | _ => [])
  | _ => (none, none, [])

/-- `push` of `titles_from_mal_api_response`. -/
def pushAdditional (primary : Option String) (additional : List String) (s : Option String) :
    List String :=
  match s with
  | none => additional
  | some s =>
      if s = "" then additional
      else if primary.any fun p => p ≠ "" ∧ cs.lower s = cs.lower p then additional
      else if additional.any fun x => cs.lower s = cs.lower x then additional
      else additional ++ [s]

/-- `titles_from_mal_api_response`. -/
def titlesFromMalApiResponse (response : List (String × PyValue F)) : Option String × List String :=
  if response.isEmpty then (none, [])
  else
    let base := titleText num (response.lookup "title")
    let (en, ja, synonyms) := alternativeTitles num response
    let primary := en.or base
    (primary, (base :: ja :: synonyms.map some).foldl (pushAdditional cs primary) [])

end Mal

section Jikan

/-- `titles_from_jikan_anime_data`, before the titles that come twice are left out. -/
def jikanTitles (data : List (String × PyValue F)) : List String :=
  let named := ["title_english", "title_japanese", "title"].filterMap fun key =>
    titleText num (data.lookup key)
  let listed :=
    match data.lookup "titles" with
    | some (.arr items) =>
        items.filterMap fun item =>
          match item with
          | .obj fields => titleText num (fields.lookup "title")
          | _ => none
    | _ => []
  named ++ listed

/-- A list of titles and the set of those in lower case. -/
structure TitleList where
  titles : List String
  seen : List String

/-- The loop of `_unique_preserve_order`. -/
def pushUnique (state : TitleList) (s : String) : TitleList :=
  if cs.lower s ∈ state.seen then state
  else ⟨state.titles ++ [s], cs.lower s :: state.seen⟩

/-- `_unique_preserve_order`. -/
def uniquePreserveOrder (strings : List String) : List String :=
  (strings.foldl (pushUnique cs) ⟨[], []⟩).titles

/-- `titles_from_jikan_anime_data`. -/
def titlesFromJikanAnimeData (data : List (String × PyValue F)) : List String :=
  uniquePreserveOrder cs (jikanTitles num data)

end Jikan

section Merge

/-- `str(x).strip() if x is not None else None`. -/
def pushed : PyValue F → Option String
  | .null => none
  | value => some (num.stripped value)

/-- `push` of `merge_additional_title_lists`. -/
def pushMerged (pl : String) (state : TitleList) (s : Option String) : TitleList :=
  match s with
  | none => state
  | some s =>
      if s = "" then state
      else if pl ≠ "" ∧ cs.lower s = pl then state
      else if cs.lower s ∈ state.seen then state
      else ⟨state.titles ++ [s], cs.lower s :: state.seen⟩

/-- What is stored, with a text decoded; `none` where that raises. -/
def decodedExisting (loads : String → JsonReading F) (existing : PyValue F) : Option (PyValue F) :=
  match existing with
  | .str text =>
      match loads text with
      | .value v => some v
      | .decodeError => some (.arr [])
      | .raised => none
  | value => some value

/-- The titles of a stored value; only a list has any. -/
def itemsOf : PyValue F → List (PyValue F)
  | .arr items => items
  | _ => []

/-- `merge_additional_title_lists`; `none` where it raises. -/
def mergeAdditionalTitleLists (loads : String → JsonReading F) (primary : Option String)
    (existing : PyValue F)
    (incoming : List (PyValue F)) : Option (List String) :=
  (decodedExisting loads existing).map fun decoded =>
    let pl := primary.elim "" fun p => if p = "" then "" else cs.lower p
    let push := fun state x => pushMerged cs pl state (pushed num x)
    (incoming.foldl push ((itemsOf decoded).foldl push ⟨[], []⟩)).titles

end Merge

/-! ## What a list of other titles is to be -/

/-- A title is the primary one, up to case. -/
def IsPrimary (primary : Option String) (title : String) : Prop :=
  ∃ p, primary = some p ∧ cs.lower title = cs.lower p

instance (primary : Option String) (title : String) : Decidable (IsPrimary cs primary title) :=
  decidable_of_iff (primary.any fun p => cs.lower title = cs.lower p)
    (by cases primary <;> simp [IsPrimary])

/-- A list holds the first of each of the titles but the primary one, in their order. -/
structure OtherTitles (primary : Option String) (titles result : List String) : Prop where
  noPrimary : ∀ t ∈ result, ¬ IsPrimary cs primary t
  nodup : (result.map cs.lower).Nodup
  ordered : result.Sublist titles
  first : ∀ t ∈ result, titles.find? (fun s => cs.lower s = cs.lower t) = some t
  lossless : ∀ t ∈ titles, ¬ IsPrimary cs primary t → ∃ s ∈ result, cs.lower s = cs.lower t

section Spec

variable {cs} {primary : Option String} {titles : List String} {t : String}

/-- Titles but the primary one. -/
def others (cs : LowerCase) (primary : Option String) (titles : List String) : List String :=
  titles.filter fun t => ¬ IsPrimary cs primary t

/-- Without a primary title, none is it. -/
theorem not_isPrimary_none (t : String) : ¬ IsPrimary cs none t := fun ⟨_, h, _⟩ => nomatch h

/-- The other titles are those that are not the primary one. -/
theorem mem_others : t ∈ others cs primary titles ↔ t ∈ titles ∧ ¬ IsPrimary cs primary t := by
  rw [others, List.mem_filter, decide_eq_true_iff]

/-- The first of each of the other titles is what the list is to be. -/
theorem otherTitles_distinctOn :
    OtherTitles cs primary titles (distinctOn cs.lower (others cs primary titles)) := by
  have hmem : ∀ t ∈ distinctOn cs.lower (others cs primary titles), t ∈ others cs primary titles :=
    fun t ht => (distinctOn_sublist _ _).subset ht
  refine ⟨fun t ht => (mem_others.mp (hmem t ht)).2, nodup_map_distinctOn _ _,
    (distinctOn_sublist _ _).trans List.filter_sublist, fun t ht => ?_, fun t ht hother => ?_⟩
  · have hfirst := find?_of_mem_distinctOn ht
    rw [others, List.find?_filter] at hfirst
    rw [← hfirst]
    congr 1
    funext s
    -- what is like `t` is no primary title either
    by_cases hsame : cs.lower s = cs.lower t
    · have hs : ¬ IsPrimary cs primary s := by
        rw [IsPrimary, hsame]
        exact (mem_others.mp (hmem t ht)).2
      simp [hsame, hs]
    · simp [hsame]
  · have hkey : cs.lower t ∈ (distinctOn cs.lower (others cs primary titles)).map cs.lower :=
      mem_keys_distinctOn.mpr (List.mem_map_of_mem (mem_others.mpr ⟨ht, hother⟩))
    obtain ⟨s, hs, hlower⟩ := List.mem_map.mp hkey
    exact ⟨s, hs, hlower⟩

end Spec

/-! ## The loops -/

section Loops

variable {num cs} {primary : Option String} {s : String}

/-- What a loop takes of what is pushed: no blank title, and not the primary one. -/
def taken (cs : LowerCase) (primary : Option String) (s : Option String) : Option String :=
  (s.filter (· ≠ "")).filter fun t => ¬ IsPrimary cs primary t

/-- What the loops take are the titles that are not blank and not the primary
one. -/
theorem filterMap_taken {α : Type} (f : α → Option String) (l : List α) :
    l.filterMap (fun a => taken cs primary (f a)) =
      others cs primary ((l.filterMap f).filter (· ≠ "")) := by
  rw [others, List.filter_filterMap, List.filter_filterMap]
  rfl

/-- A blank title and the primary one are passed over. -/
theorem taken_eq_none (h : s ≠ "" → IsPrimary cs primary s) : taken cs primary (some s) = none := by
  by_cases hblank : s = ""
  · simp [taken, hblank]
  · simp [taken, hblank, h hblank]

/-- Any other title is taken. -/
theorem taken_eq_some (hblank : s ≠ "") (h : ¬ IsPrimary cs primary s) :
    taken cs primary (some s) = some s := by
  simp [taken, hblank, h]

/-- How the sources ask whether a title is the primary one. -/
theorem isPrimary_iff (hblank : s ≠ "") :
    IsPrimary cs primary s ↔ ∃ p, primary = some p ∧ p ≠ "" ∧ cs.lower s = cs.lower p := by
  refine exists_congr fun p => and_congr_right fun _ => (and_iff_right_of_imp ?_).symm
  rintro hsame rfl
  rw [(cs.lower_eq_empty "").mpr rfl] at hsame
  exact hblank ((cs.lower_eq_empty s).mp hsame)

/-- One step of the first loop: a title that is taken is kept if it is new up to
case. -/
theorem pushAdditional_eq (additional : List String) (s : Option String) :
    pushAdditional cs primary additional s =
      match taken cs primary s with
      | some t => if cs.lower t ∈ additional.map cs.lower then additional else additional ++ [t]
      | none => additional := by
  cases s with
  | none => rfl
  | some s =>
      simp only [pushAdditional]
      by_cases hblank : s = ""
      · rw [taken_eq_none fun hne => absurd hblank hne]
        exact if_pos hblank
      · have hasked : (primary.any fun p => p ≠ "" ∧ cs.lower s = cs.lower p) = true ↔
            IsPrimary cs primary s := by
          rw [isPrimary_iff hblank, Option.any_eq_true]
          simp
        have hany : (additional.any fun x => cs.lower s = cs.lower x) = true ↔
            cs.lower s ∈ additional.map cs.lower := by
          rw [List.any_eq_true, List.mem_map]
          exact exists_congr fun x => and_congr_right fun _ => decide_eq_true_iff.trans eq_comm
        by_cases hp : IsPrimary cs primary s
        · rw [taken_eq_none fun _ => hp, if_neg hblank, if_pos (hasked.mpr hp)]
        · rw [taken_eq_some hblank hp, if_neg hblank, if_neg (mt hasked.mp hp)]
          exact if_congr hany rfl rfl

/-- One step of the second loop: the same, with the seen titles in a set. -/
theorem pushMerged_eq (state : TitleList) (s : Option String) :
    pushMerged cs (primary.elim "" fun p => if p = "" then "" else cs.lower p) state s =
      match taken cs primary s with
      | some t => pushUnique cs state t
      | none => state := by
  cases s with
  | none => rfl
  | some s =>
      simp only [pushMerged]
      by_cases hblank : s = ""
      · rw [taken_eq_none fun hne => absurd hblank hne]
        exact if_pos hblank
      · have hasked : (primary.elim "" fun p => if p = "" then "" else cs.lower p) ≠ "" ∧
            cs.lower s = (primary.elim "" fun p => if p = "" then "" else cs.lower p) ↔
              IsPrimary cs primary s := by
          rw [isPrimary_iff hblank]
          cases primary with
          | none => simp
          | some p =>
              by_cases hp : p = ""
              · simp [hp]
              · simp [hp, cs.lower_eq_empty]
        by_cases hp : IsPrimary cs primary s
        · rw [taken_eq_none fun _ => hp, if_neg hblank, if_pos (hasked.mpr hp)]
        · rw [taken_eq_some hblank hp, if_neg hblank, if_neg (mt hasked.mp hp)]
          rfl

/-- The loop with a set keeps the first of each. -/
theorem foldl_pushUnique (strings : List String) (state : TitleList) :
    (strings.foldl (pushUnique cs) state).titles =
      state.titles ++ unseen cs.lower state.seen strings := by
  induction strings generalizing state with
  | nil => simp
  | cons s strings ih =>
      rw [List.foldl_cons, ih, pushUnique]
      by_cases hseen : cs.lower s ∈ state.seen
      · rw [if_pos hseen, unseen_cons_of_mem hseen]
      · rw [if_neg hseen, unseen_cons_of_notMem hseen, List.append_assoc]
        rfl

/-- The first loop keeps the first of each of the other titles. -/
theorem foldl_pushAdditional (l : List (Option String)) :
    l.foldl (pushAdditional cs primary) [] =
      distinctOn cs.lower (others cs primary ((l.filterMap id).filter (· ≠ ""))) := by
  have htaken : l.foldl (pushAdditional cs primary) [] =
      (l.filterMap fun s => taken cs primary (id s)).foldl
        (fun out t => if cs.lower t ∈ out.map cs.lower then out else out ++ [t]) [] := by
    rw [List.foldl_filterMap]
    refine congrArg (fun step => l.foldl step []) ?_
    funext additional s
    rw [pushAdditional_eq, id_eq]
    cases taken cs primary s <;> rfl
  rw [htaken, filterMap_taken, foldl_append_new, List.nil_append, List.map_nil, unseen_of_none]

/-- So does the second. -/
theorem foldl_pushMerged (items : List (PyValue F)) :
    (items.foldl (fun state x =>
      pushMerged cs (primary.elim "" fun p => if p = "" then ""
        else cs.lower p) state (pushed num x))
        ⟨[], []⟩).titles =
      distinctOn cs.lower (others cs primary ((items.filterMap (pushed num)).filter (· ≠ ""))) := by
  have htaken : items.foldl (fun state x =>
      pushMerged cs (primary.elim "" fun p => if p = "" then ""
        else cs.lower p) state (pushed num x)) ⟨[], []⟩ =
        (items.filterMap fun x => taken cs primary (pushed num x)).foldl (pushUnique cs)
          ⟨[], []⟩ := by
    rw [List.foldl_filterMap]
    refine congrArg (fun step => items.foldl step (TitleList.mk [] [])) ?_
    funext state x
    rw [pushMerged_eq]
    cases taken cs primary (pushed num x) <;> rfl
  rw [htaken, filterMap_taken, foldl_pushUnique, List.nil_append, unseen_of_none]

end Loops

/-! ## The titles there are -/

section Titles

/-- The titles in a list of values: stripped, and not blank. -/
def titlesOf (items : List (PyValue F)) : List String :=
  (items.filterMap (pushed num)).filter (· ≠ "")

/-- The titles in a stored value: in a list, or in a text of one. -/
def storedTitles (loads : String → JsonReading F) : PyValue F → List String
  | .arr items => titlesOf num items
  | .str text =>
      match loads text with
      | .value (.arr items) => titlesOf num items
      | _ => []
  | _ => []

/-- The titles in a response of MAL, the English one first. -/
def knownTitles (response : List (String × PyValue F)) : List String :=
  let (en, ja, synonyms) := alternativeTitles num response
  en.toList ++ ((titleText num (response.lookup "title")).toList ++ (ja.toList ++ synonyms))

variable {num cs} {loads : String → JsonReading F} {primary : Option String}
  {existing decoded : PyValue F}
  {items incoming : List (PyValue F)} {titles : List String} {t : String}

/-- The titles of two lists are those of each. -/
theorem titlesOf_append (items items' : List (PyValue F)) :
    titlesOf num (items ++ items') = titlesOf num items ++ titlesOf num items' := by
  rw [titlesOf, List.filterMap_append, List.filter_append]
  rfl

/-- A title that is read has been stripped and is not blank. -/
theorem clean_of_mem_titlesOf (h : t ∈ titlesOf num items) : CleanText t := by
  obtain ⟨hmem, hne⟩ := List.mem_filter.mp h
  obtain ⟨x, _, hx⟩ := List.mem_filterMap.mp hmem
  refine ⟨?_, of_decide_eq_true hne⟩
  cases x with
  | null => cases hx
  | _ =>
      obtain rfl := Option.some.inj hx
      exact strip_strip _

/-- Trimmed titles are read as they are. -/
theorem titlesOf_map_str (h : ∀ t ∈ titles, CleanText t) :
    titlesOf num (titles.map .str) = titles := by
  have hpushed : (titles.map PyValue.str).filterMap (pushed num) = titles := by
    rw [List.filterMap_map]
    exact (List.filterMap_congr fun t ht => congrArg some (h t ht).1).trans List.filterMap_some
  rw [titlesOf, hpushed, List.filter_eq_self]
  exact fun t ht => decide_eq_true (h t ht).2

/-- A stored title has been stripped and is not blank. -/
theorem clean_of_mem_storedTitles (h : t ∈ storedTitles num loads existing) : CleanText t := by
  unfold storedTitles at h
  split at h
  · exact clean_of_mem_titlesOf h
  · split at h
    · exact clean_of_mem_titlesOf h
    · cases h
  · cases h

/-- The stored titles are those of the decoded list. -/
theorem storedTitles_of_decoded (h : decodedExisting loads existing = some decoded) :
    titlesOf num (itemsOf decoded) = storedTitles num loads existing := by
  cases existing with
  | str text =>
      simp only [decodedExisting] at h
      simp only [storedTitles]
      cases hloads : loads text with
      | value v =>
          rw [hloads] at h
          obtain rfl := Option.some.inj h
          cases v <;> rfl
      | decodeError =>
          rw [hloads] at h
          obtain rfl := Option.some.inj h
          rfl
      | raised =>
          rw [hloads] at h
          cases h
  | _ =>
      obtain rfl := Option.some.inj h
      rfl

/-- The other titles of two lists are those of each. -/
theorem others_append (titles titles' : List String) :
    others cs primary (titles ++ titles') = others cs primary titles ++ others cs primary titles' :=
  List.filter_append titles titles'

/-- Where none is the primary one, all are other titles. -/
theorem others_eq_self (h : ∀ t ∈ titles, ¬ IsPrimary cs primary t) :
    others cs primary titles = titles :=
  List.filter_eq_self.mpr fun t ht => decide_eq_true (h t ht)

/-- What a merge returns. -/
theorem mergeAdditionalTitleLists_eq (h : decodedExisting loads existing = some decoded) :
    mergeAdditionalTitleLists num cs loads primary existing incoming =
      some (distinctOn cs.lower
        (others cs primary (storedTitles num loads existing ++ titlesOf num incoming))) := by
  rw [mergeAdditionalTitleLists, h, Option.map_some]
  dsimp only
  rw [← List.foldl_append, foldl_pushMerged, ← storedTitles_of_decoded h, ← titlesOf_append]
  rfl

/-- Merging raises only at a stored text that is no JSON. -/
theorem mergeAdditionalTitleLists_eq_none_iff :
    mergeAdditionalTitleLists num cs loads primary existing incoming = none ↔
      ∃ text, existing = .str text ∧ loads text = .raised := by
  rw [mergeAdditionalTitleLists, Option.map_eq_none_iff]
  cases existing with
  | str text =>
      simp only [decodedExisting]
      cases hloads : loads text <;> simp [hloads]
  | _ => simp [decodedExisting]

end Titles

/-! ## What the sources do -/

section Results

variable {num cs} {loads : String → JsonReading F} {primary : Option String} {existing : PyValue F}
  {incoming : List (PyValue F)} {result : List String}

/-- A merge that returns. -/
theorem eq_of_merge
    (h : mergeAdditionalTitleLists num cs loads primary existing incoming = some result) :
    result = distinctOn cs.lower
      (others cs primary (storedTitles num loads existing ++ titlesOf num incoming)) := by
  obtain ⟨decoded, hdecoded, -⟩ := Option.map_eq_some_iff.mp h
  rw [mergeAdditionalTitleLists_eq hdecoded] at h
  exact (Option.some.inj h).symm

/-- **What is merged** holds the stored titles and the incoming ones. -/
theorem otherTitles_of_merge
    (h : mergeAdditionalTitleLists num cs loads primary existing incoming = some result) :
    OtherTitles cs primary (storedTitles num loads existing ++ titlesOf num incoming) result := by
  rw [eq_of_merge h]
  exact otherTitles_distinctOn

/-- Merging the same titles again changes nothing. -/
theorem merge_again
    (h : mergeAdditionalTitleLists num cs loads primary existing incoming = some result) :
    mergeAdditionalTitleLists num cs loads primary (.arr (result.map .str)) incoming =
      some result := by
  have hother := otherTitles_of_merge h
  have hclean : ∀ t ∈ result, CleanText t := by
    intro t ht
    obtain hstored | hincoming := List.mem_append.mp (hother.ordered.subset ht)
    · exact clean_of_mem_storedTitles hstored
    · exact clean_of_mem_titlesOf hincoming
  have hstored : storedTitles num loads (.arr (result.map .str)) = result := titlesOf_map_str hclean
  rw [mergeAdditionalTitleLists_eq rfl, hstored, others_append, others_eq_self hother.noPrimary,
    eq_of_merge h, others_append, distinctOn_again]

/-- A title's text has been stripped and is not blank. -/
theorem clean_of_titleText
    {value : Option (PyValue F)} {t : String} (h : titleText num value = some t) :
    CleanText t := by
  cases value with
  | none => simp [titleText] at h
  | some v =>
      by_cases htruthy : num.truthy v = true
      · simp only [titleText, htruthy, if_true, Option.ite_none_left_eq_some] at h
        obtain ⟨hne, heq⟩ := h
        obtain rfl := Option.some.inj heq
        exact ⟨strip_strip (num.str v), hne⟩
      · simp [titleText, htruthy] at h

/-- The titles in a response of MAL are trimmed. -/
theorem clean_of_mem_alternativeTitles {response : List (String × PyValue F)} {t : String}
    (h : t ∈ (alternativeTitles num response).1.toList ++
      ((alternativeTitles num response).2.1.toList ++ (alternativeTitles num response).2.2)) :
        CleanText t := by
  unfold alternativeTitles at h
  split at h
  · simp only [List.mem_append, Option.mem_toList] at h
    obtain hen | hja | hsynonym := h
    · exact clean_of_titleText hen
    · exact clean_of_titleText hja
    · split at hsynonym
      · obtain ⟨hmem, hne⟩ := List.mem_filter.mp hsynonym
        obtain ⟨item, _, rfl⟩ := List.mem_map.mp hmem
        exact ⟨strip_strip _, of_decide_eq_true hne⟩
      · cases hsynonym
  · simp at h

/-- Every title of an answer has been stripped and is not blank. -/
theorem clean_of_mem_knownTitles {response : List (String × PyValue F)} {t : String}
    (h : t ∈ knownTitles num response) : CleanText t := by
  obtain hen | hrest := List.mem_append.mp h
  · exact clean_of_mem_alternativeTitles (List.mem_append_left _ hen)
  · obtain hbase | halt := List.mem_append.mp hrest
    · exact clean_of_titleText (Option.mem_toList.mp hbase)
    · exact clean_of_mem_alternativeTitles (List.mem_append_right _ halt)

/-- The English title is the primary one, if there is one. -/
theorem others_english (en base : Option String) : others cs (en.or base) en.toList = [] := by
  cases en with
  | none => rfl
  | some t =>
      have hprimary : IsPrimary cs (some t) t := ⟨t, rfl, rfl⟩
      simp [others, hprimary]

/-- **What is read from an answer** holds all of its titles. -/
theorem otherTitles_mal (response : List (String × PyValue F)) :
    OtherTitles cs (titlesFromMalApiResponse num cs response).1 (knownTitles num response)
      (titlesFromMalApiResponse num cs response).2 := by
  by_cases hempty : response = []
  · subst hempty
    have hnone : OtherTitles cs none [] (distinctOn cs.lower (others cs none [])) :=
      otherTitles_distinctOn
    exact hnone
  · have hne : ∀ t ∈ (titleText num (response.lookup "title")).toList ++
        ((alternativeTitles num response).2.1.toList ++ (alternativeTitles num response).2.2),
          t ≠ "" :=
      fun t ht => (clean_of_mem_knownTitles (List.mem_append_right _ ht)).2
    rw [titlesFromMalApiResponse, if_neg (by simpa using hempty), knownTitles]
    generalize titleText num (response.lookup "title") = base at hne ⊢
    generalize alternativeTitles num response = alt at hne ⊢
    obtain ⟨en, ja, synonyms⟩ := alt
    have hpushed : (base :: ja :: synonyms.map some).filterMap id =
        base.toList ++ (ja.toList ++ synonyms) := by
      cases base <;> cases ja <;> simp
    have hnonblank : (base.toList ++ (ja.toList ++ synonyms)).filter (· ≠ "") =
        base.toList ++ (ja.toList ++ synonyms) :=
      List.filter_eq_self.mpr fun t ht => decide_eq_true (hne t ht)
    have hothers : others cs (en.or base) (base.toList ++ (ja.toList ++ synonyms)) =
        others cs (en.or base) (en.toList ++ (base.toList ++ (ja.toList ++ synonyms))) := by
      rw [others_append en.toList, others_english, List.nil_append]
    dsimp only
    rw [foldl_pushAdditional, hpushed, hnonblank, hothers]
    exact otherTitles_distinctOn

/-- **The lists of other titles.**  A merge fails only on a text that cannot be
decoded at all.  What it returns is the first of each of the stored and then the
incoming titles, up to case and but for the primary one, and merging the same
titles into that changes nothing.  So it is with what is taken from MAL. -/
theorem titleLists_lossless (num : PyNumbers F) (cs : LowerCase) (loads : String → JsonReading F) :
    (∀ primary existing incoming,
      (mergeAdditionalTitleLists num cs loads primary existing incoming = none ↔
        ∃ text, existing = .str text ∧ loads text = .raised) ∧
      ∀ result, mergeAdditionalTitleLists num cs loads primary existing incoming = some result →
        OtherTitles cs primary (storedTitles num loads existing ++ titlesOf num incoming) result ∧
          mergeAdditionalTitleLists num cs loads primary (.arr (result.map .str)) incoming =
            some result) ∧
      ∀ response, OtherTitles cs (titlesFromMalApiResponse num cs response).1
        (knownTitles num response)
        (titlesFromMalApiResponse num cs response).2 :=
  ⟨fun _ _ _ =>
    ⟨mergeAdditionalTitleLists_eq_none_iff, fun _ h => ⟨otherTitles_of_merge h, merge_again h⟩⟩,
    otherTitles_mal⟩

/-- The lower case of ASCII. -/
def asciiLower : LowerCase where
  lower text := String.ofList (text.toList.map Char.toLower)
  lower_eq_empty text := by
    rw [← String.toList_eq_nil_iff, String.toList_ofList, List.map_eq_nil_iff,
      String.toList_eq_nil_iff]

example : mergeAdditionalTitleLists wholeNumbers asciiLower (fun _ => .decodeError) (some "En")
    (.arr [.str "Ro", .str "EN", .null]) [.str "日", .str " ro "] = some ["Ro", "日"] := by
      decide +kernel

end Results

/-! ## The row of an anime -/

/-- `main_title` and `additional_titles` of a row of `mal.anime`. -/
structure AnimeTitles (F : Type) where
  mainTitle : Option String
  additionalTitles : Option (PyValue F)

/-- `cast(json.dumps(titles) as jsonb)`; the database refuses a text with a NUL. -/
def jsonbOf (titles : List String) : Option (PyValue F) :=
  if titles.any fun t => t.toList.contains (Char.ofNat 0) then none
    else some (.arr (titles.map .str))

/-- The titles that `upsert_anime_from_mal_api` writes. -/
def upsertedTitles (response : List (String × PyValue F)) : Option (AnimeTitles F) :=
  let (mainTitle, additional) := titlesFromMalApiResponse num cs response
  (jsonbOf additional).map fun stored => ⟨mainTitle, some stored⟩

/-- `merge_jikan_title_variants` of a row that there is; `none` where it raises. -/
def mergeJikanTitleVariants (loads : String → JsonReading F) (data : List (String × PyValue F))
    (row : AnimeTitles F) : Option (AnimeTitles F) :=
  let incoming := titlesFromJikanAnimeData num cs data
  if incoming.isEmpty then some row
  else
    let primary :=
      row.mainTitle.bind fun title => if strip title = "" then none else some (strip title)
    let extra := row.additionalTitles.getD (.arr [])
    (mergeAdditionalTitleLists num cs loads primary extra (incoming.map .str)).bind fun merged =>
      (jsonbOf merged).map fun stored => { row with additionalTitles := some stored }

/-- The same answer of Jikan, so many times. -/
def mergeJikanTimes (loads : String → JsonReading F) (data : List (String × PyValue F)) :
    ℕ → AnimeTitles F → Option (AnimeTitles F)
  | 0, row => some row
  | n + 1, row =>
      (mergeJikanTitleVariants num cs loads data row).bind (mergeJikanTimes loads data n)

section Row

variable {num cs} {loads : String → JsonReading F}
  {data : List (String × PyValue F)} {row row' : AnimeTitles F}

/-- A list of titles is stored as the JSON list of them. -/
theorem jsonbOf_eq {titles : List String} {stored : PyValue F} (h : jsonbOf titles = some stored) :
    stored = .arr (titles.map .str) := by
  unfold jsonbOf at h
  split at h
  · cases h
  · exact (Option.some.inj h).symm

/-- The titles of Jikan, each once. -/
theorem otherTitles_jikan (data : List (String × PyValue F)) :
    OtherTitles cs none (jikanTitles num data) (titlesFromJikanAnimeData num cs data) := by
  have hothers : others cs none (jikanTitles num data) = jikanTitles num data :=
    others_eq_self fun t _ => not_isPrimary_none t
  have hfirst : titlesFromJikanAnimeData num cs data =
      distinctOn cs.lower (others cs none (jikanTitles num data)) := by
    rw [titlesFromJikanAnimeData, uniquePreserveOrder, foldl_pushUnique, hothers, List.nil_append,
      unseen_of_none]
  rw [hfirst]
  exact otherTitles_distinctOn

/-- **Another merge of the same answer leaves the row as it is.** -/
theorem mergeJikanTitleVariants_again
    (h : mergeJikanTitleVariants num cs loads data row = some row') :
    mergeJikanTitleVariants num cs loads data row' = some row' := by
  unfold mergeJikanTitleVariants at h ⊢
  by_cases hempty : (titlesFromJikanAnimeData num cs data).isEmpty = true
  · rw [if_pos hempty]
  · rw [if_neg hempty] at h ⊢
    obtain ⟨merged, hmerged, hrow⟩ := Option.bind_eq_some_iff.mp h
    obtain ⟨stored, hstored, rfl⟩ := Option.map_eq_some_iff.mp hrow
    obtain rfl := jsonbOf_eq hstored
    rw [Option.getD_some]
    dsimp only
    rw [merge_again hmerged, Option.bind_some, hstored, Option.map_some]

/-- However often an answer comes, the row is as after the first time. -/
theorem mergeJikanTimes_succ (h : mergeJikanTitleVariants num cs loads data row = some row')
    (n : ℕ) :
    mergeJikanTimes num cs loads data (n + 1) row = some row' := by
  induction n generalizing row with
  | zero => rw [mergeJikanTimes, h, Option.bind_some, mergeJikanTimes]
  | succ n ih => rw [mergeJikanTimes, h, Option.bind_some, ih (mergeJikanTitleVariants_again h)]

/-- A title of Jikan's has been stripped and is not blank. -/
theorem clean_of_mem_jikanTitles {t : String} (h : t ∈ jikanTitles num data) : CleanText t := by
  obtain hnamed | hlisted := List.mem_append.mp h
  · obtain ⟨_, _, htitle⟩ := List.mem_filterMap.mp hnamed
    exact clean_of_titleText htitle
  · split at hlisted
    · obtain ⟨item, _, htitle⟩ := List.mem_filterMap.mp hlisted
      cases item with
      | obj fields => exact clean_of_titleText htitle
      | _ => cases htitle
    · cases hlisted

/-- The primary title of an answer is one of its titles. -/
theorem primary_mem_knownTitles {response : List (String × PyValue F)} {t : String}
    (h : (titlesFromMalApiResponse num cs response).1 = some t) : t ∈ knownTitles num response := by
  rw [titlesFromMalApiResponse] at h
  split at h
  · cases h
  · rw [knownTitles, List.mem_append, Option.mem_toList, List.mem_append, Option.mem_toList]
    obtain hen | ⟨-, hbase⟩ := Option.or_eq_some_iff.mp h
    · exact Or.inl hen
    · exact Or.inr (Or.inl hbase)

/-- The main title of a response is trimmed. -/
theorem trimmed_primary (response : List (String × PyValue F)) :
    ((titlesFromMalApiResponse num cs response).1.bind fun title =>
      if strip title = "" then none else some (strip title)) =
        (titlesFromMalApiResponse num cs response).1 := by
  cases hmain : (titlesFromMalApiResponse num cs response).1 with
  | none => rfl
  | some t =>
      obtain ⟨hstrip, hne⟩ := clean_of_mem_knownTitles (primary_mem_knownTitles hmain)
      rw [Option.bind_some, hstrip, if_neg hne]

/-- **No title is lost on the way into a row**: each that MAL or Jikan knows is
its main title or among its others, up to case. -/
theorem represented_of_ingest {response : List (String × PyValue F)}
    (hrow : upsertedTitles num cs response = some row)
    (h : mergeJikanTitleVariants num cs loads data row = some row') :
    ∃ titles : List String, row'.additionalTitles = some (.arr (titles.map .str)) ∧
      ∀ t ∈ knownTitles num response ++ jikanTitles num data,
        ¬ IsPrimary cs row'.mainTitle t → ∃ s ∈ titles, cs.lower s = cs.lower t := by
  have hmal : OtherTitles cs (titlesFromMalApiResponse num cs response).1 (knownTitles num response)
      (titlesFromMalApiResponse num cs response).2 := otherTitles_mal response
  have hjikan : OtherTitles cs none (jikanTitles num data) (titlesFromJikanAnimeData num cs data) :=
    otherTitles_jikan data
  have hupserted : (jsonbOf (titlesFromMalApiResponse num cs response).2).map (fun stored =>
      AnimeTitles.mk (titlesFromMalApiResponse num cs response).1 (some stored)) = some row := hrow
  obtain ⟨stored, hstored, rfl⟩ := Option.map_eq_some_iff.mp hupserted
  obtain rfl := jsonbOf_eq hstored
  unfold mergeJikanTitleVariants at h
  by_cases hempty : (titlesFromJikanAnimeData num cs data).isEmpty = true
  · rw [if_pos hempty] at h
    obtain rfl := Option.some.inj h
    refine ⟨_, rfl, fun t ht hother => ?_⟩
    obtain hknown | hlisted := List.mem_append.mp ht
    · exact hmal.lossless t hknown hother
    · obtain ⟨s, hs, -⟩ := hjikan.lossless t hlisted (not_isPrimary_none t)
      rw [List.isEmpty_iff.mp hempty] at hs
      cases hs
  · rw [if_neg hempty] at h
    obtain ⟨merged, hmerged, hupdated⟩ := Option.bind_eq_some_iff.mp h
    obtain ⟨stored, hstored', rfl⟩ := Option.map_eq_some_iff.mp hupdated
    obtain rfl := jsonbOf_eq hstored'
    have hclean : ∀ t ∈ (titlesFromMalApiResponse num cs response).2, CleanText t :=
      fun t ht => clean_of_mem_knownTitles (hmal.ordered.subset ht)
    have hincoming : ∀ t ∈ titlesFromJikanAnimeData num cs data, CleanText t :=
      fun t ht => clean_of_mem_jikanTitles (hjikan.ordered.subset ht)
    dsimp only at hmerged
    rw [trimmed_primary, Option.getD_some] at hmerged
    have hother := otherTitles_of_merge hmerged
    rw [storedTitles, titlesOf_map_str hclean, titlesOf_map_str hincoming] at hother
    refine ⟨merged, rfl, fun t ht hnot => ?_⟩
    -- what stands for the title in its own list has one that stands for it in the merged one
    have hstands : ∃ s ∈ (titlesFromMalApiResponse num cs response).2 ++
        titlesFromJikanAnimeData num cs data,
        cs.lower s = cs.lower t := by
      obtain hknown | hlisted := List.mem_append.mp ht
      · obtain ⟨s, hs, hsame⟩ := hmal.lossless t hknown hnot
        exact ⟨s, List.mem_append_left _ hs, hsame⟩
      · obtain ⟨s, hs, hsame⟩ := hjikan.lossless t hlisted (not_isPrimary_none t)
        exact ⟨s, List.mem_append_right _ hs, hsame⟩
    obtain ⟨s, hs, hsame⟩ := hstands
    obtain ⟨s', hs', hsame'⟩ := hother.lossless s hs (by rwa [IsPrimary, hsame])
    exact ⟨s', hs', hsame'.trans hsame⟩

end Row

end Nebularr
