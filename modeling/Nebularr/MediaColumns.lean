import Mathlib.Data.List.Dedup
import Nebularr.PythonText

/-!
# Columns read off a media file payload

Sonarr and Radarr describe a file by `quality`, `languages` and `mediaInfo`.
The file upserts do not store these blocks as columns; they store what this
module extracts: the audio and subtitle languages, the quality name, the
codecs and the quality tier.  Text is matched character by character, so the
two searches of the resolution extractor are ordinary list recursions.
-/

namespace Nebularr

/-- One entry of a file's `languages` array. -/
structure LanguagePayload where
  name : Option String := none
  value : Option String := none
deriving DecidableEq, Repr

/-- The `quality.quality` block. -/
structure QualityPayload where
  name : Option String := none
  resolution : Option Int := none
deriving DecidableEq, Repr

/-- The `mediaInfo` block. -/
structure MediaInfo where
  audioLanguages : Option String := none
  subtitles : Option String := none
  audioCodec : Option String := none
  audioChannels : Option String := none
  videoCodec : Option String := none
  resolution : Option String := none
deriving DecidableEq, Repr

/-- An `episodeFile` or `movieFile` object.  Only its `id` decides whether
the sync writes it; the rest ends up in columns. -/
structure FilePayload where
  id : Option Int := none
  path : Option String := none
  size : Option Int := none
  quality : QualityPayload := {}
  languages : List LanguagePayload := []
  mediaInfo : MediaInfo := {}
deriving DecidableEq, Repr

/-- `episode_file.get("id")` as the sync tests it: absent and zero ids are
both falsy. -/
def FilePayload.truthyId (file : FilePayload) : Option Int :=
  file.id.filter (· ≠ 0)

/-- `_split_language_list`: lower case, cut at `,`, `/`, `|` and white space. -/
def splitLanguageList (lower : String → String) (raw : String) : List String :=
  let cut := (lower raw).toList.splitOnP fun c => c = ',' || c = '/' || c = '|' || c.isWhitespace
  (cut.filter (· ≠ [])).map String.ofList

/-- `sorted(set(values))`. -/
def sortedSet (values : List String) : List String :=
  values.dedup.mergeSort fun a b => decide (a ≤ b)

/-- A text that Python would treat as true. -/
def truthyText (text : Option String) : Option String :=
  text.filter (· ≠ "")

/-- `_extract_media_languages`: audio languages, then subtitle languages. -/
def extractMediaLanguages (lower : String → String) (file : FilePayload) :
    List String × List String :=
  let named := file.languages.filterMap fun lang =>
    ((truthyText lang.name).or (truthyText lang.value)).map lower
  let spoken := (truthyText file.mediaInfo.audioLanguages).elim [] (splitLanguageList lower)
  let subtitled := (truthyText file.mediaInfo.subtitles).elim [] (splitLanguageList lower)
  (sortedSet (named ++ spoken), sortedSet subtitled)

/-- Cutting a list keeps to its elements. -/
theorem mem_of_mem_splitOnP {p : Char → Bool} {text piece : List Char}
    (hpiece : piece ∈ text.splitOnP p) {c : Char} (hc : c ∈ piece) : c ∈ text := by
  induction text generalizing piece with
  | nil =>
      rw [List.splitOnP_nil, List.mem_singleton] at hpiece
      rwa [hpiece] at hc
  | cons x rest ih =>
      rw [List.splitOnP_cons_eq_if_modifyHead] at hpiece
      split at hpiece
      · rcases List.mem_cons.mp hpiece with rfl | hpiece
        · exact absurd hc List.not_mem_nil
        · exact List.mem_cons_of_mem x (ih hpiece hc)
      · cases hpieces : rest.splitOnP p with
        | nil => simp [hpieces] at hpiece
        | cons head pieces =>
            rw [hpieces, List.modifyHead_cons] at hpiece
            rcases List.mem_cons.mp hpiece with rfl | hpiece
            · rcases List.mem_cons.mp hc with rfl | hc
              · exact List.mem_cons_self
              · exact List.mem_cons_of_mem x (ih (hpieces ▸ List.mem_cons_self) hc)
            · exact List.mem_cons_of_mem x (ih (hpieces ▸ List.mem_cons_of_mem head hpiece) hc)

theorem splitLanguageList_lowered {raw v : String} (h : v ∈ splitLanguageList String.toLower raw) :
    v.toLower = v := by
  obtain ⟨piece, hpiece, rfl⟩ := List.mem_map.mp h
  have hchars : ∀ c ∈ piece, c.toLower = c := by
    intro c hc
    have hmem := mem_of_mem_splitOnP (List.mem_filter.mp hpiece).1 hc
    rw [toList_toLower] at hmem
    obtain ⟨d, _, rfl⟩ := List.mem_map.mp hmem
    exact toLower_toLower d
  apply String.toList_inj.mp
  rw [toList_toLower, String.toList_ofList]
  exact (List.map_congr_left hchars).trans (List.map_id piece)

theorem mem_sortedSet {values : List String} {v : String} : v ∈ sortedSet values ↔ v ∈ values := by
  rw [sortedSet, List.mem_mergeSort, List.mem_dedup]

/-- The languages are stored in lower case, that of ASCII for one. -/
theorem extractMediaLanguages_lowered (file : FilePayload) :
    (∀ v ∈ (extractMediaLanguages String.toLower file).1, v.toLower = v) ∧
      ∀ v ∈ (extractMediaLanguages String.toLower file).2, v.toLower = v := by
  have hsplit : ∀ text : Option String, ∀ v ∈ text.elim [] (splitLanguageList String.toLower),
      v.toLower = v := by
    intro text v hv
    cases text with
    | none => exact absurd hv List.not_mem_nil
    | some raw => exact splitLanguageList_lowered hv
  constructor
  · intro v hv
    rw [extractMediaLanguages, mem_sortedSet, List.mem_append] at hv
    rcases hv with hnamed | hspoken
    · obtain ⟨lang, _, hlang⟩ := List.mem_filterMap.mp hnamed
      obtain ⟨text, _, rfl⟩ := Option.map_eq_some_iff.mp hlang
      exact lowered_toLower text
    · exact hsplit _ v hspoken
  · intro v hv
    rw [extractMediaLanguages, mem_sortedSet] at hv
    exact hsplit _ v hv

/-- `_WIDTH_TIERS`. -/
def widthTiers : List (Int × Int) :=
  [(3840, 2160), (2560, 1440), (1920, 1080), (1280, 720), (852, 480), (640, 360)]

/-- `_tier_from_width`: the first tier whose width is reached. -/
def tierFromWidth (width : Int) : Option Int :=
  (widthTiers.find? fun tier => tier.1 ≤ width).map Prod.snd

section Searches

variable (cls : TextClasses)

/-- `(\d{3,4})[pi]` at the head of the text. -/
def tierAt (text : List Char) : Option Int :=
  let digits := text.takeWhile cls.isDigit
  let next := (text.dropWhile cls.isDigit).head?
  if (digits.length = 3 || digits.length = 4) && (next = some 'p' || next = some 'i') then
    some (cls.value digits)
  else
    none

/-- `re.search(r"(\d{3,4})[pi]", name)`: the leftmost match. -/
def searchTier : List Char → Option Int
  | [] => none
  | c :: rest => (tierAt cls (c :: rest)).or (searchTier rest)

/-- `re.search(r"^\s*(\d{3,5})\s*x", resolution)`. -/
def frameWidth (text : List Char) : Option Int :=
  let afterBlank := text.dropWhile cls.space
  let digits := afterBlank.takeWhile cls.isDigit
  let next := ((afterBlank.dropWhile cls.isDigit).dropWhile cls.space).head?
  if 3 ≤ digits.length && digits.length ≤ 5 && next = some 'x' then
    some (cls.value digits)
  else
    none

/-- `re.search(r"x\s*(\d{3,4})\s*$", resolution)`: the leftmost match. -/
def frameHeight : List Char → Option Int
  | [] => none
  | c :: rest =>
      let afterBlank := rest.dropWhile cls.space
      let digits := afterBlank.takeWhile cls.isDigit
      let tail := (afterBlank.dropWhile cls.isDigit).dropWhile cls.space
      if c = 'x' && (digits.length = 3 || digits.length = 4) && tail.isEmpty then
        some (cls.value digits)
      else
        frameHeight rest

variable {cls} {text : List Char} {n : Int}

/-- What a match at the head of the text is. -/
theorem tierAt_eq_some_iff :
    tierAt cls text = some n ↔ ∃ digits c rest, text = digits ++ c :: rest ∧
      (∀ d ∈ digits, cls.isDigit d = true) ∧ (digits.length = 3 ∨ digits.length = 4) ∧
      (c = 'p' ∨ c = 'i') ∧ cls.value digits = n := by
  constructor
  · intro h
    unfold tierAt at h
    dsimp only at h
    split at h
    · rename_i hcond
      simp only [Bool.and_eq_true, Bool.or_eq_true, decide_eq_true_iff] at hcond
      obtain ⟨hlength, hnext⟩ := hcond
      have hletter : ∃ c, (text.dropWhile cls.isDigit).head? = some c ∧ (c = 'p' ∨ c = 'i') := by
        rcases hnext with hp | hi
        · exact ⟨'p', hp, Or.inl rfl⟩
        · exact ⟨'i', hi, Or.inr rfl⟩
      obtain ⟨c, hc, hletter⟩ := hletter
      obtain ⟨rest, hrest⟩ := List.head?_eq_some_iff.mp hc
      refine ⟨text.takeWhile cls.isDigit, c, rest, ?_, fun d hd => ?_, hlength, hletter,
        Option.some.inj h⟩
      · rw [← hrest, List.takeWhile_append_dropWhile]
      · exact List.mem_takeWhile_imp hd
    · cases h
  · intro ⟨digits, c, rest, htext, hdigits, hlength, hletter, hvalue⟩
    have hc : cls.isDigit c = false := by
      rcases hletter with rfl | rfl
      · exact (cls.letters 'p' (by simp)).1
      · exact (cls.letters 'i' (by simp)).1
    have hstop : ∀ a, (c :: rest).head? = some a → cls.isDigit a = false := by
      intro a ha
      rwa [← Option.some.inj ha]
    obtain ⟨htake, hdrop⟩ := span_run hdigits hstop
    unfold tierAt
    dsimp only
    rw [htext, htake, hdrop, if_pos, hvalue]
    simpa using ⟨hlength, hletter⟩

/-- What a match of the frame width is. -/
theorem frameWidth_eq_some_iff :
    frameWidth cls text = some n ↔ ∃ blank digits blank' rest,
      text = blank ++ (digits ++ (blank' ++ 'x' :: rest)) ∧
      (∀ c ∈ blank, cls.space c = true) ∧ (∀ c ∈ digits, cls.isDigit c = true) ∧
      (∀ c ∈ blank', cls.space c = true) ∧ 3 ≤ digits.length ∧ digits.length ≤ 5 ∧
      cls.value digits = n := by
  constructor
  · intro h
    unfold frameWidth at h
    dsimp only at h
    split at h
    · rename_i hcond
      simp only [Bool.and_eq_true, decide_eq_true_iff] at hcond
      obtain ⟨⟨hlow, hhigh⟩, hnext⟩ := hcond
      obtain ⟨rest, hrest⟩ := List.head?_eq_some_iff.mp hnext
      refine ⟨text.takeWhile cls.space, (text.dropWhile cls.space).takeWhile cls.isDigit,
        ((text.dropWhile cls.space).dropWhile cls.isDigit).takeWhile cls.space, rest, ?_,
        fun c hc => List.mem_takeWhile_imp hc, fun c hc => List.mem_takeWhile_imp hc,
        fun c hc => List.mem_takeWhile_imp hc, hlow, hhigh, Option.some.inj h⟩
      rw [← hrest, List.takeWhile_append_dropWhile, List.takeWhile_append_dropWhile,
        List.takeWhile_append_dropWhile]
    · cases h
  · intro ⟨blank, digits, blank', rest, htext, hblank, hdigits, hblank', hlow, hhigh, hvalue⟩
    have hafterBlank : ∀ a, (blank' ++ 'x' :: rest).head? = some a → cls.isDigit a = false := by
      intro a ha
      cases blank' with
      | nil =>
          rw [← Option.some.inj ha]
          exact (cls.letters 'x' (by simp)).1
      | cons b blank' =>
          rw [← Option.some.inj ha, ← Bool.not_eq_true]
          intro hdigit
          have hspace := cls.space_of_isSome_digit b hdigit
          rw [hblank' b List.mem_cons_self] at hspace
          cases hspace
    have hdigitsFirst : ∀ a, (digits ++ (blank' ++ 'x' :: rest)).head? = some a →
        cls.space a = false := by
      intro a ha
      cases digits with
      | nil => simp at hlow
      | cons d digits =>
          rw [← Option.some.inj ha]
          exact cls.space_of_isSome_digit d (hdigits d List.mem_cons_self)
    have hletter : ∀ a, ('x' :: rest).head? = some a → cls.space a = false := by
      intro a ha
      rw [← Option.some.inj ha]
      exact (cls.letters 'x' (by simp)).2
    unfold frameWidth
    dsimp only
    rw [htext, (span_run hblank hdigitsFirst).2, (span_run hdigits hafterBlank).1,
      (span_run hdigits hafterBlank).2, (span_run hblank' hletter).2, if_pos, hvalue]
    simpa using ⟨hlow, hhigh⟩

/-! A text that two classifications read alike is searched alike. -/

variable {cls' : TextClasses}

theorem tierAt_congr (h : cls.AlikeOn cls' text) : tierAt cls text = tierAt cls' text := by
  obtain ⟨htake, hdrop⟩ := span_congr h.isDigit
  have hvalue : cls.value (text.takeWhile cls'.isDigit) =
      cls'.value (text.takeWhile cls'.isDigit) :=
    (h.mono (List.takeWhile_subset _)).value
  unfold tierAt
  dsimp only
  rw [htake, hdrop, hvalue]

theorem searchTier_congr (h : cls.AlikeOn cls' text) :
    searchTier cls text = searchTier cls' text := by
  induction text with
  | nil => rfl
  | cons c rest ih =>
      rw [searchTier, searchTier, tierAt_congr h, ih (h.mono (List.subset_cons_self c rest))]

/-- The digits after the blanks, their number, and what is left after more blanks. -/
theorem blankRun_congr (h : cls.AlikeOn cls' text) :
    let digits := (text.dropWhile cls'.space).takeWhile cls'.isDigit
    (text.dropWhile cls.space).takeWhile cls.isDigit = digits ∧
      cls.value digits = cls'.value digits ∧
      ((text.dropWhile cls.space).dropWhile cls.isDigit).dropWhile cls.space =
        ((text.dropWhile cls'.space).dropWhile cls'.isDigit).dropWhile cls'.space := by
  have hafter := h.mono (List.dropWhile_suffix cls'.space).subset
  have hlast := hafter.mono (List.dropWhile_suffix cls'.isDigit).subset
  obtain ⟨htake, hdrop⟩ := span_congr hafter.isDigit
  rw [(span_congr fun c hc => (h c hc).2).2, htake, hdrop,
    (span_congr fun c hc => (hlast c hc).2).2]
  exact ⟨rfl, (hafter.mono (List.takeWhile_subset cls'.isDigit)).value, rfl⟩

theorem frameWidth_congr (h : cls.AlikeOn cls' text) :
    frameWidth cls text = frameWidth cls' text := by
  obtain ⟨hdigits, hvalue, htail⟩ := blankRun_congr h
  unfold frameWidth
  dsimp only
  rw [hdigits, htail, hvalue]

theorem frameHeight_congr (h : cls.AlikeOn cls' text) :
    frameHeight cls text = frameHeight cls' text := by
  induction text with
  | nil => rfl
  | cons c rest ih =>
      have hrest := h.mono (List.subset_cons_self c rest)
      obtain ⟨hdigits, hvalue, htail⟩ := blankRun_congr hrest
      unfold frameHeight
      dsimp only
      rw [hdigits, htail, hvalue, ih hrest]

end Searches

/-- `_extract_video_resolution`: the quality tier, most authoritative source
first. -/
def extractVideoResolution (file : FilePayload) : Option Int :=
  let declared := file.quality.resolution.filter fun tier => 240 ≤ tier && tier ≤ 4320
  let named := searchTier pythonClasses (file.quality.name.getD "").toList
  let frame := (file.mediaInfo.resolution.getD "").toList
  declared.or (named.or
    (((frameWidth pythonClasses frame).bind tierFromWidth).or (frameHeight pythonClasses frame)))

/-- The columns the two file tables share. -/
structure MediaCols where
  path : Option String
  sizeBytes : Option Int
  quality : Option String
  audioLanguages : List String
  subtitleLanguages : List String
  audioCodec : Option String
  audioChannels : Option String
  videoCodec : Option String
  videoResolution : Option Int
  payload : FilePayload
deriving DecidableEq, Repr

/-- What `upsert_episode_file` and `upsert_movie_file` bind besides the keys. -/
def mediaCols (lower : String → String) (file : FilePayload) : MediaCols where
  path := file.path
  sizeBytes := file.size
  quality := file.quality.name
  audioLanguages := (extractMediaLanguages lower file).1
  subtitleLanguages := (extractMediaLanguages lower file).2
  audioCodec := file.mediaInfo.audioCodec
  audioChannels := file.mediaInfo.audioChannels
  videoCodec := file.mediaInfo.videoCodec
  videoResolution := extractVideoResolution file
  payload := file

end Nebularr
