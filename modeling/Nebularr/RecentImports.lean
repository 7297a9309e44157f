import Nebularr.LibraryListing
import Nebularr.TopRows

/-!
# The newest imports

`recent_imports` asks the episode files and the movie files for their newest
rows each, and orders the two answers once more.
-/

namespace Nebularr

inductive ImportKind
  | episode
  | movie
deriving DecidableEq, Repr

/-- A row of `recent_imports`; quality, size, codecs and path are read off `media`. -/
structure ImportRow where
  kind : ImportKind
  instanceName : String
  itemId : Int
  title : String
  year : Option Int
  seasonNumber : Option Int
  episodeNumber : Option Int
  episodeTitle : Option String
  media : MediaCols
  seenAt : Int
  dateAdded : Option String
deriving DecidableEq, Repr

/-- What is kept outside the file rows: `seen_at`, and `dateAdded` of the payload. -/
structure FileTimes where
  seenAt : RowKey → Int
  dateAdded : RowKey → Option String

section Imports

variable (pg : TextRules) (w : Warehouse) (episodeTimes movieTimes : FileTimes)

/-- The row of an episode file: its episode may be deleted, its series not. -/
def episodeImport (file : RowKey × SoftRow EpisodeFileCols) : Option ImportRow :=
  if file.2.deleted then none
  else
    (w.episode.row ⟨file.2.cols.episodeSourceId, file.1.instanceName⟩).bind fun e =>
      (joinedSeries w file.1 e.cols).map fun s =>
        { kind := .episode
          instanceName := file.1.instanceName
          itemId := e.cols.seriesSourceId
          title := s.title
          year := s.payload.year
          seasonNumber := some e.cols.seasonNumber
          episodeNumber := some e.cols.episodeNumber
          episodeTitle := some e.cols.title
          media := file.2.cols.media
          seenAt := episodeTimes.seenAt file.1
          dateAdded := episodeTimes.dateAdded file.1 }

/-- The row of a movie file, whose movie may not be deleted. -/
def movieImport (file : RowKey × SoftRow MovieFileCols) : Option ImportRow :=
  if file.2.deleted then none
  else
    ((w.movie.row ⟨file.2.cols.movieSourceId, file.1.instanceName⟩).filter fun m =>
      !m.deleted).map fun m =>
      { kind := .movie
        instanceName := file.1.instanceName
        itemId := file.2.cols.movieSourceId
        title := m.cols.title
        year := m.cols.year
        seasonNumber := none
        episodeNumber := none
        episodeTitle := none
        media := file.2.cols.media
        seenAt := movieTimes.seenAt file.1
        dateAdded := movieTimes.dateAdded file.1 }

/-- The rows of the first branch, without its limit. -/
def episodeImports : List ImportRow :=
  (w.episodeFile.selectWhere fun _ _ => true).filterMap (episodeImport w episodeTimes)

/-- The rows of the second branch, without its limit. -/
def movieImports : List ImportRow :=
  (w.movieFile.selectWhere fun _ _ => true).filterMap (movieImport w movieTimes)

/-- `seen_at desc, date_added desc nulls last`. -/
def importOrder : ImportRow → ImportRow → Ordering :=
  compareLex (byColumn (fun a b => compare b a) ImportRow.seenAt)
    (byColumn (nullsLast fun a b => pg.collate b a) ImportRow.dateAdded)

instance : Std.TransCmp (importOrder pg) := by
  unfold importOrder
  infer_instance

/-- What `recent_imports` may answer: each branch with its limit, and the limit
on both. -/
def RecentImports (limit : Int) (out : List ImportRow) : Prop :=
  ∃ episodes movies,
    LimitedAnswers (importOrder pg) (episodeImports w episodeTimes)
      (clampLimit limit 12 60) episodes ∧
      LimitedAnswers (importOrder pg) (movieImports w movieTimes) (clampLimit limit 12 60) movies ∧
        LimitedAnswers (importOrder pg) (episodes ++ movies) (clampLimit limit 12 60) out

end Imports

section Newest

variable {pg : TextRules} {w : Warehouse} {episodeTimes movieTimes : FileTimes}

theorem kind_of_mem_episodeImports {row : ImportRow} (h : row ∈ episodeImports w episodeTimes) :
    row.kind = .episode := by
  obtain ⟨file, -, hrow⟩ := List.mem_filterMap.mp h
  unfold episodeImport at hrow
  split at hrow
  · cases hrow
  · obtain ⟨e, -, hrow⟩ := Option.bind_eq_some_iff.mp hrow
    obtain ⟨s, -, rfl⟩ := Option.map_eq_some_iff.mp hrow
    rfl

theorem kind_of_mem_movieImports {row : ImportRow} (h : row ∈ movieImports w movieTimes) :
    row.kind = .movie := by
  obtain ⟨file, -, hrow⟩ := List.mem_filterMap.mp h
  unfold movieImport at hrow
  split at hrow
  · cases hrow
  · obtain ⟨m, -, rfl⟩ := Option.map_eq_some_iff.mp hrow
    rfl

/-- An earlier import does not come first. -/
theorem seenAt_le_of_isLE {a b : ImportRow} (h : (importOrder pg a b).isLE = true) :
    b.seenAt ≤ a.seenAt := by
  unfold importOrder compareLex byColumn at h
  dsimp only at h
  rcases Int.lt_or_le a.seenAt b.seenAt with hlt | hle
  · have hgt : compare b.seenAt a.seenAt = .gt := Int.compare_eq_gt.mpr hlt
    rw [hgt] at h
    cases h
  · exact hle

end Newest

/-- **The limits in the branches leave out nothing.**  `recent_imports` may answer
with just what one query over all imports may answer with: as many as are asked
for, or all there are, and none that is left out was seen later than one that is
listed. -/
theorem recentImports_iff (pg : TextRules) (w : Warehouse) (episodeTimes movieTimes : FileTimes)
    (limit : Int)
    (out : List ImportRow) :
    (RecentImports pg w episodeTimes movieTimes limit out ↔
      LimitedAnswers (importOrder pg) (episodeImports w episodeTimes ++ movieImports w movieTimes)
        (clampLimit limit 12 60) out) ∧
      (RecentImports pg w episodeTimes movieTimes limit out → ∃ rest,
        (out ++ rest).Perm (episodeImports w episodeTimes ++ movieImports w movieTimes) ∧
          out.length = min (clampLimit limit 12 60)
            ((episodeImports w episodeTimes).length + (movieImports w movieTimes).length) ∧
            ∀ listed ∈ out, ∀ left ∈ rest, left.seenAt ≤ listed.seenAt) := by
  have hiff : RecentImports pg w episodeTimes movieTimes limit out ↔
      LimitedAnswers (importOrder pg) (episodeImports w episodeTimes ++ movieImports w movieTimes)
        (clampLimit limit 12 60) out := by
    refine (limitedAnswers_union_iff (p := fun row => decide (row.kind = .episode)) ?_ ?_).symm
    · intro row hrow
      rw [kind_of_mem_episodeImports hrow]
      rfl
    · intro row hrow
      rw [kind_of_mem_movieImports hrow]
      rfl
  refine ⟨hiff, fun h => ?_⟩
  obtain ⟨rest, hcut⟩ := limitedAnswers_iff.mp (hiff.mp h)
  refine ⟨rest, hcut.perm, ?_, fun listed hlisted left hleft => ?_⟩
  · rw [hcut.length, List.length_append]
  · exact seenAt_le_of_isLE (hcut.le listed hlisted left hleft)

end Nebularr
