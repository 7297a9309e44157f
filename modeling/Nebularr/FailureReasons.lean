import Nebularr.Candidates

/-!
# Why a row fails

`failure_reasons` reads off the columns of a candidate row which clauses of
`require` the row misses.  The query decides the same clauses in SQL, so the
rule is written twice.  The two differ in what they take lower case to be, for
the codec, which only the database lowers, and on a row whose item claims a
file while no live file row is joined: to the query it does not conform,
whatever the clauses say of nulls, and the function judges the nulls.
-/

namespace Nebularr

/-- What `failure_reasons` reports. -/
inductive FailureReason
  | noFile
  | audioLanguage
  | subtitleLanguage
  | resolution
  | videoCodec
  | quality
deriving DecidableEq, Repr

/-- The reason as the run row has it. -/
def FailureReason.text : FailureReason → String
  | noFile => "no_file"
  | audioLanguage => "audio_language"
  | subtitleLanguage => "subtitle_language"
  | resolution => "resolution"
  | videoCodec => "video_codec"
  | quality => "quality"

/-- `_REASON_ORDER`. -/
def reasonOrder : List FailureReason :=
  [.noFile, .audioLanguage, .subtitleLanguage, .resolution, .videoCodec, .quality]

/-- A file row's columns as the upserts store them: languages are in lower case
when they are written. -/
structure StoredMedia (lower : String → String) where
  cols : MediaCols
  audioLowered : ∀ v ∈ cols.audioLanguages, lower v = v
  subtitlesLowered : ∀ v ∈ cols.subtitleLanguages, lower v = v

/-- The columns of a file payload are stored columns. -/
def storedMedia (file : FilePayload) : StoredMedia String.toLower where
  cols := mediaCols String.toLower file
  audioLowered := fun _ hv => (extractMediaLanguages_lowered file).1 _ hv
  subtitlesLowered := fun _ hv => (extractMediaLanguages_lowered file).2 _ hv

section Reasons

variable (lower : Lowering) (require : RuleRequire)

/-- `_require_fragments`, each clause under the reason for missing it. -/
def requireClauses (file : Option MediaCols) : List (FailureReason × Truth) :=
  (if require.audioLanguageAny ≠ [] then
    [(.audioLanguage, .existsRow ((file.map MediaCols.audioLanguages).getD []) fun al =>
      .ofBool (al ∈ require.audioLanguageAny.map lower.python))] else []) ++
  (if require.subtitleLanguageAny ≠ [] then
    [(.subtitleLanguage, .existsRow ((file.map MediaCols.subtitleLanguages).getD []) fun sl =>
      .ofBool (sl ∈ require.subtitleLanguageAny.map lower.python))] else []) ++
  (require.resolutionMin.elim [] fun floor =>
    [(.resolution, .ofBool (floor ≤ (file.bind MediaCols.videoResolution).getD 0))]) ++
  (if require.videoCodecAny ≠ [] then
    [(.videoCodec, .ofBool (lower.sql ((file.bind MediaCols.videoCodec).getD "") ∈
      require.videoCodecAny.map lower.python))] else []) ++
  (if require.qualityAny ≠ [] then
    [(.quality, .ofBool ((file.bind MediaCols.quality).getD "" ∈ require.qualityAny))] else [])

/-- `{has_file} and {alias}.source_id is not null and {req_expr}`. -/
def conforming (hasFile : Option Bool) (file : Option MediaCols) : Truth :=
  .all (.ofBool (hasFile.getD false) :: .ofBool file.isSome ::
    (requireClauses lower require file).map Prod.snd)

/-- The two spell the same clauses. -/
theorem conformingRow_eq (hasFile : Option Bool) (file : Option MediaCols) :
    conformingRow lower require hasFile file = conforming lower require hasFile file := by
  have hclauses : requireFragments lower require file =
      (requireClauses lower require file).map Prod.snd := by
    simp only [requireFragments, requireClauses, List.map_append, Lowering.column]
    cases require.resolutionMin <;> split_ifs <;> rfl
  rw [conformingRow, conforming, hclauses]

/-- `failure_reasons`. -/
def failureReasons (row : CandidateRow) : List FailureReason :=
  if row.hasFile ≠ some true then [.noFile]
  else
    let heard := ((row.file.map MediaCols.audioLanguages).getD []).map lower.python
    let subtitled := ((row.file.map MediaCols.subtitleLanguages).getD []).map lower.python
    let codec := lower.python ((row.file.bind MediaCols.videoCodec).getD "")
    let reasons :=
      (if require.audioLanguageAny ≠ [] ∧
          ∀ v ∈ heard, v ∉ require.audioLanguageAny.map lower.python then
        [.audioLanguage] else []) ++
      (if require.subtitleLanguageAny ≠ [] ∧
          ∀ v ∈ subtitled, v ∉ require.subtitleLanguageAny.map lower.python then
        [.subtitleLanguage] else []) ++
      (require.resolutionMin.elim [] fun floor =>
        if (row.file.bind MediaCols.videoResolution).getD 0 < floor then [.resolution] else []) ++
      (if require.videoCodecAny ≠ [] ∧ codec ∉ require.videoCodecAny.map lower.python then
        [.videoCodec] else []) ++
      (if require.qualityAny ≠ [] ∧
          (row.file.bind MediaCols.quality).getD "" ∉ require.qualityAny then
        [FailureReason.quality] else [])
    reasons.insertionSort fun a b => reasonOrder.idxOf a ≤ reasonOrder.idxOf b

/-- A clause of `require` is not true of a file, and this is its reason. -/
def Missed (file : Option MediaCols) (reason : FailureReason) : Prop :=
  ∃ clause ∈ requireClauses lower require file, clause.1 = reason ∧ ¬ clause.2.Holds

/-- The columns of a candidate row that its file join decides. -/
def joinedColumns (base : CandidateRow) (hasFile : Option Bool) (file : Option MediaCols) :
    CandidateRow :=
  { base with hasFile := some (hasFile.getD false), file := file }

/-- The function agrees with the query about a row: it is silent on the rows
that conform, and of any other it names the clauses that are not true, or, where
there is no file, just that. -/
structure ReasonsAgree (noFile : Prop) (base : CandidateRow) (hasFile : Option Bool)
    (file : Option MediaCols) : Prop where
  silent : failureReasons lower require (joinedColumns base hasFile file) = [] ↔
    (conforming lower require hasFile file).Holds
  named : ¬ (conforming lower require hasFile file).Holds → ∀ reason,
    reason ∈ failureReasons lower require (joinedColumns base hasFile file) ↔
      (noFile ∧ reason = .noFile) ∨ (¬ noFile ∧ Missed lower require file reason)

/-- A codec that is looked at is among the wanted ones in both lower cases or
in neither. -/
def CodecAlike (file : Option MediaCols) : Prop :=
  require.videoCodecAny ≠ [] →
    (lower.sql ((file.bind MediaCols.videoCodec).getD "") ∈ require.videoCodecAny.map lower.python ↔
      lower.python ((file.bind MediaCols.videoCodec).getD "") ∈
        require.videoCodecAny.map lower.python)

variable {lower : Lowering} {require : RuleRequire}

private theorem mem_named {p : Prop} [Decidable p] {reason named : FailureReason} :
    reason ∈ (if p then [named] else []) ↔ reason = named ∧ p := by
  by_cases hp : p <;> simp [hp]

private theorem missed_clause {p : Prop} [Decidable p] {reason named : FailureReason} {t : Truth} :
    (∃ clause ∈ (if p then [(named, t)] else []), clause.1 = reason ∧ ¬ clause.2.Holds) ↔
      reason = named ∧ p ∧ ¬ t.Holds := by
  by_cases hp : p <;> simp [hp, eq_comm]

/-- What the function names, clause by clause. -/
theorem mem_failureReasons {row : CandidateRow} (hfile : row.hasFile = some true)
    {reason : FailureReason} :
    reason ∈ failureReasons lower require row ↔
      (reason = .audioLanguage ∧ require.audioLanguageAny ≠ [] ∧
        ∀ v ∈ (row.file.map MediaCols.audioLanguages).getD [],
          lower.python v ∉ require.audioLanguageAny.map lower.python) ∨
      (reason = .subtitleLanguage ∧ require.subtitleLanguageAny ≠ [] ∧
        ∀ v ∈ (row.file.map MediaCols.subtitleLanguages).getD [],
          lower.python v ∉ require.subtitleLanguageAny.map lower.python) ∨
      (reason = .resolution ∧ ∃ floor, require.resolutionMin = some floor ∧
        (row.file.bind MediaCols.videoResolution).getD 0 < floor) ∨
      (reason = .videoCodec ∧ require.videoCodecAny ≠ [] ∧
        lower.python ((row.file.bind MediaCols.videoCodec).getD "") ∉
          require.videoCodecAny.map lower.python) ∨
      (reason = .quality ∧ require.qualityAny ≠ [] ∧
        (row.file.bind MediaCols.quality).getD "" ∉ require.qualityAny) := by
  have hfloor : (reason ∈ require.resolutionMin.elim [] fun floor =>
      if (row.file.bind MediaCols.videoResolution).getD 0 < floor then
        [FailureReason.resolution] else []) ↔
      reason = .resolution ∧ ∃ floor, require.resolutionMin = some floor ∧
        (row.file.bind MediaCols.videoResolution).getD 0 < floor := by
    cases require.resolutionMin with
    | none => simp
    | some floor =>
        rw [Option.elim_some, mem_named]
        simp
  rw [failureReasons, if_neg (by simp [hfile])]
  simp only [List.mem_insertionSort, List.mem_append, mem_named, hfloor, List.forall_mem_map,
    or_assoc]

/-- What the query misses, clause by clause. -/
theorem missed_iff {file : Option MediaCols} {reason : FailureReason} :
    Missed lower require file reason ↔
      (reason = .audioLanguage ∧ require.audioLanguageAny ≠ [] ∧
        ∀ v ∈ (file.map MediaCols.audioLanguages).getD [],
          v ∉ require.audioLanguageAny.map lower.python) ∨
      (reason = .subtitleLanguage ∧ require.subtitleLanguageAny ≠ [] ∧
        ∀ v ∈ (file.map MediaCols.subtitleLanguages).getD [],
          v ∉ require.subtitleLanguageAny.map lower.python) ∨
      (reason = .resolution ∧ ∃ floor, require.resolutionMin = some floor ∧
        (file.bind MediaCols.videoResolution).getD 0 < floor) ∨
      (reason = .videoCodec ∧ require.videoCodecAny ≠ [] ∧
        lower.sql ((file.bind MediaCols.videoCodec).getD "") ∉
          require.videoCodecAny.map lower.python) ∨
      (reason = .quality ∧ require.qualityAny ≠ [] ∧
        (file.bind MediaCols.quality).getD "" ∉ require.qualityAny) := by
  have hfloor : (∃ clause ∈ require.resolutionMin.elim [] fun floor =>
      [(FailureReason.resolution, Truth.ofBool
        (floor ≤ (file.bind MediaCols.videoResolution).getD 0))],
      clause.1 = reason ∧ ¬ clause.2.Holds) ↔
      reason = .resolution ∧ ∃ floor, require.resolutionMin = some floor ∧
        (file.bind MediaCols.videoResolution).getD 0 < floor := by
    cases require.resolutionMin <;> simp [eq_comm]
  simp only [Missed, requireClauses, List.mem_append, or_and_right, exists_or, missed_clause,
    hfloor,
    Truth.holds_existsRow, Truth.holds_ofBool, decide_eq_true_eq, not_exists, not_and, or_assoc]

theorem holds_conforming_iff {hasFile : Option Bool} {file : Option MediaCols} :
    (conforming lower require hasFile file).Holds ↔
      hasFile.getD false = true ∧ file.isSome ∧ ∀ reason, ¬ Missed lower require file reason := by
  have hall : (∀ t ∈ (requireClauses lower require file).map Prod.snd, t.Holds) ↔
      ∀ reason, ¬ Missed lower require file reason := by
    rw [List.forall_mem_map]
    constructor
    · intro h reason ⟨clause, hmem, _, hmiss⟩
      exact hmiss (h clause hmem)
    · intro h clause hmem
      by_contra hmiss
      exact h clause.1 ⟨clause, hmem, rfl, hmiss⟩
  rw [conforming, Truth.holds_all]
  simp only [List.forall_mem_cons, Truth.holds_ofBool, hall]

section Joined

variable {base : CandidateRow} {hasFile : Option Bool} {file : Option (StoredMedia lower.python)}

theorem failureReasons_noFile (h : hasFile.getD false = false) (cols : Option MediaCols) :
    failureReasons lower require (joinedColumns base hasFile cols) = [.noFile] := by
  rw [failureReasons, if_pos (by simp [joinedColumns, h])]

/-- On stored columns the function is the query, with the codec in Python's
lower case. -/
theorem mem_failureReasons_iff_missed (h : hasFile.getD false = true) {reason : FailureReason} :
    reason ∈ failureReasons lower require (joinedColumns base hasFile (file.map StoredMedia.cols)) ↔
      Missed ⟨lower.python, lower.python⟩ require (file.map StoredMedia.cols) reason := by
  have haudio : ∀ v ∈ ((file.map StoredMedia.cols).map MediaCols.audioLanguages).getD [],
      lower.python v = v := by
    cases file with
    | none => simp
    | some stored => exact stored.audioLowered
  have hsubtitles : ∀ v ∈ ((file.map StoredMedia.cols).map MediaCols.subtitleLanguages).getD [],
      lower.python v = v := by
    cases file with
    | none => simp
    | some stored => exact stored.subtitlesLowered
  have hfile : (joinedColumns base hasFile (file.map StoredMedia.cols)).hasFile = some true := by
    rw [joinedColumns, h]
  rw [mem_failureReasons hfile, missed_iff]
  refine or_congr (and_congr_right' (and_congr_right' ?_)) (or_congr
    (and_congr_right' (and_congr_right' ?_)) Iff.rfl)
  · exact forall₂_congr fun v hv => by rw [haudio v hv]
  · exact forall₂_congr fun v hv => by rw [hsubtitles v hv]

/-- The two lower cases give the same clauses exactly when they treat the codec
alike. -/
theorem missed_python_iff {file : Option MediaCols} :
    (∀ reason, Missed ⟨lower.python, lower.python⟩ require file reason ↔
      Missed lower require file reason) ↔ CodecAlike lower require file := by
  constructor
  · intro h hcodec
    have hboth := h .videoCodec
    simp only [missed_iff, reduceCtorEq, false_and, true_and, false_or, or_false] at hboth
    have hnot := and_congr_right_iff.mp hboth hcodec
    exact (not_iff_not.mp hnot).symm
  · intro h reason
    rw [missed_iff, missed_iff]
    refine or_congr Iff.rfl (or_congr Iff.rfl (or_congr Iff.rfl (or_congr ?_ Iff.rfl)))
    exact and_congr_right fun _ => and_congr_right fun hcodec => not_congr (h hcodec).symm

/-- With nothing joined the nulls are judged, so the reason is never `no_file`. -/
theorem not_missed_noFile {lower : Lowering} {file : Option MediaCols} :
    ¬ Missed lower require file .noFile := by
  simp [missed_iff]

theorem reasonsAgree_unfiled (h : hasFile.getD false = false) {noFile : Prop} (hno : noFile)
    (cols : Option MediaCols) : ReasonsAgree lower require noFile base hasFile cols := by
  have hreasons : failureReasons lower require (joinedColumns base hasFile cols) = [.noFile] :=
    failureReasons_noFile h cols
  constructor
  · simp [hreasons, holds_conforming_iff, h]
  · intro _ reason
    simp [hreasons, hno]

/-- A row whose item claims a file, when that counts as having one. -/
theorem reasonsAgree_filed (h : hasFile.getD false = true) {noFile : Prop} (hno : ¬ noFile) :
    ReasonsAgree lower require noFile base hasFile (file.map StoredMedia.cols) ↔
      CodecAlike lower require (file.map StoredMedia.cols) ∧
        (file = none → ∃ reason, Missed lower require none reason) := by
  have hnamed : ∀ reason,
      reason ∈ failureReasons lower require
        (joinedColumns base hasFile (file.map StoredMedia.cols)) ↔
        Missed ⟨lower.python, lower.python⟩ require (file.map StoredMedia.cols) reason :=
    fun _ => mem_failureReasons_iff_missed h
  constructor
  · intro ⟨hsilent, hnames⟩
    have halike : ∀ reason,
        Missed ⟨lower.python, lower.python⟩ require (file.map StoredMedia.cols) reason ↔
          Missed lower require (file.map StoredMedia.cols) reason := by
      intro reason
      rw [← hnamed]
      by_cases hconforms : (conforming lower require hasFile (file.map StoredMedia.cols)).Holds
      · rw [hsilent.mpr hconforms]
        simp [(holds_conforming_iff.mp hconforms).2.2 reason]
      · simpa [hno] using hnames hconforms reason
    refine ⟨missed_python_iff.mp halike, ?_⟩
    rintro rfl
    have hreasons := mt hsilent.mp (by simp [holds_conforming_iff])
    obtain ⟨reason, hmem⟩ := List.exists_mem_of_ne_nil _ hreasons
    exact ⟨reason, (halike reason).mp ((hnamed reason).mp hmem)⟩
  · intro ⟨hcodec, hnone⟩
    have hmissed : ∀ reason,
        reason ∈ failureReasons lower require
            (joinedColumns base hasFile (file.map StoredMedia.cols)) ↔
          Missed lower require (file.map StoredMedia.cols) reason :=
      fun reason => (hnamed reason).trans (missed_python_iff.mpr hcodec reason)
    constructor
    · rw [List.eq_nil_iff_forall_not_mem, holds_conforming_iff]
      simp only [hmissed, h, true_and]
      refine ⟨fun hall => ⟨?_, hall⟩, And.right⟩
      cases file with
      | none =>
          obtain ⟨reason, hmiss⟩ := hnone rfl
          exact absurd hmiss (hall reason)
      | some stored => rfl
    · intro _ reason
      simp [hmissed, hno]

/-- **Where the reasons are those of the query.**  "No file" has two readings,
that the item claims none and that none is joined.  The function goes by the
first, and gives no reason for an item that claims a file, has none joined and
is asked for nothing a null misses. -/
theorem reasonsAgree_iff :
    (ReasonsAgree lower require (hasFile.getD false = false) base hasFile
        (file.map StoredMedia.cols) ↔
      (hasFile.getD false = true → CodecAlike lower require (file.map StoredMedia.cols) ∧
        (file = none → ∃ reason, Missed lower require none reason))) ∧
    (ReasonsAgree lower require (hasFile.getD false = false ∨ file = none) base hasFile
        (file.map StoredMedia.cols) ↔
      (hasFile.getD false = true → CodecAlike lower require (file.map StoredMedia.cols) ∧
        file.isSome)) := by
  cases h : hasFile.getD false with
  | false => simp [reasonsAgree_unfiled h]
  | true =>
      refine ⟨by simpa using reasonsAgree_filed h (by simp), ?_⟩
      cases file with
      | none =>
          have hunnamed : ¬ ReasonsAgree lower require (true = false ∨ True) base hasFile none := by
            intro ⟨_, hnames⟩
            have hnamed : FailureReason.noFile ∈ failureReasons lower require
                (joinedColumns base hasFile
                  ((none : Option (StoredMedia lower.python)).map StoredMedia.cols)) :=
              (hnames (by simp [holds_conforming_iff]) .noFile).mpr (by simp)
            exact not_missed_noFile ((mem_failureReasons_iff_missed h).mp hnamed)
          simpa using hunnamed
      | some stored =>
          have hfiled : ReasonsAgree lower require False base hasFile
              ((some stored).map StoredMedia.cols) ↔ _ := reasonsAgree_filed h id
          simpa using hfiled

/-- A film whose payload says `hasFile` while no live file row is joined, under
a rule that requires nothing: it does not conform and no reason is given,
whichever way "no file" is read. -/
theorem not_reasonsAgree_unjoined :
    ¬ ReasonsAgree ⟨String.toLower, String.toLower⟩ {} False
        { sourceId := 1, title := "Akira" } (some true) none ∧
      ¬ ReasonsAgree ⟨String.toLower, String.toLower⟩ {} True
        { sourceId := 1, title := "Akira" } (some true) none := by
  have hreasons : failureReasons ⟨String.toLower, String.toLower⟩ {}
      (joinedColumns { sourceId := 1, title := "Akira" } (some true) none) = [] := by
    simp [failureReasons, joinedColumns]
  have hloud : ¬ (conforming ⟨String.toLower, String.toLower⟩ {} (some true) none).Holds := by
    simp [holds_conforming_iff]
  exact ⟨fun h => hloud (h.silent.mp hreasons), fun h => hloud (h.silent.mp hreasons)⟩

end Joined

/-- Where one lower case serves both sides, a row with a joined file is
explained exactly when the query of the candidate model leaves it out. -/
theorem failureReasons_eq_nil_iff {lower : String → String} {require : RuleRequire}
    {base : CandidateRow} {hasFile : Option Bool} {file : StoredMedia lower} :
    failureReasons ⟨lower, lower⟩ require (joinedColumns base hasFile (some file.cols)) = [] ↔
      (conformingRow ⟨lower, lower⟩ require hasFile (some file.cols)).Holds := by
  rw [conformingRow_eq]
  cases h : hasFile.getD false with
  | false =>
      have hagree : ReasonsAgree ⟨lower, lower⟩ require True base hasFile (some file.cols) :=
        reasonsAgree_unfiled h trivial _
      exact hagree.silent
  | true =>
      have hagree : ReasonsAgree ⟨lower, lower⟩ require False base hasFile
          ((some file).map StoredMedia.cols) :=
        (reasonsAgree_filed h id).mpr ⟨fun _ => Iff.rfl, fun hnone => by simp at hnone⟩
      exact hagree.silent

/-- So it is with the columns that an upsert stores of a payload. -/
theorem failureReasons_mediaCols {require : RuleRequire} {base : CandidateRow}
    {hasFile : Option Bool} {file : FilePayload} :
    failureReasons .ascii require
      (joinedColumns base hasFile (some (mediaCols String.toLower file))) = [] ↔
      (conformingRow .ascii require hasFile (some (mediaCols String.toLower file))).Holds :=
  @failureReasons_eq_nil_iff _ require base hasFile (storedMedia file)

end Reasons

end Nebularr
