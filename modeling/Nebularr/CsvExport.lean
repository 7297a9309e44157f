import Nebularr.CsvFormat
import Nebularr.DistinctOn
import Nebularr.PythonValues

/-!
# Downloads as CSV

A report or a listing is downloaded as a CSV text, at once or as a stream that
keeps no more than a row of it.  The keys of the first row are the columns; a
value that is a list or an object is written as JSON, a key that a row does not
have as nothing.

The stream is the same text, and reading it gives the rows back; where it breaks
off, the rows that arrived are the first ones (`read_csvStream`).
-/

namespace Nebularr

/-! ## The name of the file -/

def isFilenameChar (c : Char) : Bool := c.isAlphanum || c == '.' || c == '_' || c == '-'

/-- `re.sub(r"[^A-Za-z0-9._-]+", "_", text)`; `inRun` after a character that was
replaced. -/
def squeezed (inRun : Bool) : List Char → List Char
  | [] => []
  | c :: rest =>
      if isFilenameChar c then c :: squeezed false rest
      else if inRun then squeezed true rest
      else '_' :: squeezed true rest

/-- `safe_filename`. -/
def safeFilename (filename : List Char) : List Char :=
  let safe := (squeezed false filename).take 120
  if safe = [] then "export.csv".toList else safe

theorem isFilenameChar_of_mem_squeezed {inRun : Bool} {text : List Char} {c : Char}
    (h : c ∈ squeezed inRun text) : isFilenameChar c = true := by
  induction text generalizing inRun with
  | nil => exact absurd h List.not_mem_nil
  | cons d rest ih =>
      rw [squeezed] at h
      split at h
      · next hfine =>
          obtain rfl | hrest := List.mem_cons.mp h
          · exact hfine
          · exact ih hrest
      · split at h
        · exact ih h
        · obtain rfl | hrest := List.mem_cons.mp h
          · rfl
          · exact ih hrest

/-- Nothing that a header line could not hold, and never empty. -/
theorem safeFilename_fits (filename : List Char) :
    (∀ c ∈ safeFilename filename, isFilenameChar c = true) ∧
      0 < (safeFilename filename).length ∧ (safeFilename filename).length ≤ 120 := by
  rw [safeFilename]
  split
  · have hall : "export.csv".toList.all isFilenameChar = true := by decide
    exact ⟨List.all_eq_true.mp hall, by decide, by decide⟩
  · next hne =>
      refine ⟨fun c hc => isFilenameChar_of_mem_squeezed (List.mem_of_mem_take hc), ?_,
        List.length_take_le _ _⟩
      exact List.length_pos_iff.mpr hne

/-! ## The text -/

section Export

variable {F : Type} (num : PyNumbers F) (dumps : PyValue F → String)

/-- A row, as a dict. -/
abbrev ExportRow (F : Type) := List (String × PyValue F)

/-- `_normalize_csv_row`. -/
def normalizeCsvRow (row : ExportRow F) : ExportRow F :=
  row.map fun (key, value) =>
    match value with
    | .arr _ | .obj _ => (key, .str (dumps value))
    | _ => (key, value)

/-- `_csv_fieldnames`. -/
def csvFieldnames (first : ExportRow F) (fieldnames : Option (List String)) : List String :=
  distinctOn id (first.map Prod.fst ++ fieldnames.getD [])

/-- What `csv.writer` makes of a value. -/
def csvField : PyValue F → Csv.Field
  | .null => []
  | value => (num.str value).toList

/-- `DictWriter._dict_to_list`, with the default `restval`. -/
def dictToList (cols : List String) (row : ExportRow F) : List Csv.Field :=
  cols.map fun col => csvField num ((row.lookup col).getD (.str ""))

/-- `writer.writeheader()`. -/
def csvHeader (cols : List String) : List Csv.Field := cols.map String.toList

/-- `writer.writerow(_normalize_csv_row(row))`. -/
def csvLine (cols : List String) (row : ExportRow F) : List Char :=
  Csv.writeRecord (dictToList num cols (normalizeCsvRow dumps row))

/-- The text of `csv_response`. -/
def csvResponse (rows : List (ExportRow F)) (fieldnames : Option (List String)) : List Char :=
  match rows with
  | [] => []
  | first :: _ =>
      let cols := csvFieldnames first fieldnames
      Csv.writeRecord (csvHeader cols) ++ rows.flatMap (csvLine num dumps cols)

/-- The chunks of `csv_stream_response`: `writer` are the columns of the writer,
once there is one. -/
def csvStream (fieldnames : Option (List String)) (writer : Option (List String)) :
    List (ExportRow F) → List (List Char)
  | [] => []
  | row :: rest =>
      match writer with
      | none =>
          let cols := csvFieldnames row fieldnames
          (Csv.writeRecord (csvHeader cols) ++ csvLine num dumps cols row) ::
            csvStream fieldnames (some cols) rest
      | some cols => csvLine num dumps cols row :: csvStream fieldnames (some cols) rest

/-! ## What it says -/

/-- How a value stands in the file. -/
def exportedText : PyValue F → Csv.Field
  | .null => []
  | .arr items => (dumps (.arr items)).toList
  | .obj fields => (dumps (.obj fields)).toList
  | value => (num.str value).toList

/-- The record of a row. -/
def exportedRecord (cols : List String) (row : ExportRow F) : List Csv.Field :=
  cols.map fun col => ((row.lookup col).map (exportedText num dumps)).getD []

variable {num dumps}
  {rows : List (ExportRow F)} {fieldnames : Option (List String)} {cols : List String}

theorem lookup_normalizeCsvRow (row : ExportRow F) (col : String) :
    ((normalizeCsvRow dumps row).lookup col).map (csvField num) =
      (row.lookup col).map (exportedText num dumps) := by
  induction row with
  | nil => rfl
  | cons entry rest ih =>
      obtain ⟨key, value⟩ := entry
      rw [normalizeCsvRow, List.map_cons, ← normalizeCsvRow]
      by_cases hkey : col = key
      · rw [hkey]
        cases value <;> simp [csvField, exportedText, PyNumbers.str]
      · have hbeq : (col == key) = false := beq_false_of_ne hkey
        cases value <;> simp [List.lookup_cons, hbeq, ih]

/-- The writer's list of a row is its record. -/
theorem dictToList_eq (cols : List String) (row : ExportRow F) :
    dictToList num cols (normalizeCsvRow dumps row) = exportedRecord num dumps cols row := by
  apply List.map_congr_left
  intro col _
  have hlookup : ((normalizeCsvRow dumps row).lookup col).map (csvField num) =
      (row.lookup col).map (exportedText num dumps) := lookup_normalizeCsvRow row col
  rw [← hlookup]
  cases (normalizeCsvRow dumps row).lookup col with
  | none => rfl
  | some value => rfl

theorem flatMap_csvLine (cols : List String) (rows : List (ExportRow F)) :
    rows.flatMap (csvLine num dumps cols) =
      Csv.writeRecords (rows.map (exportedRecord num dumps cols)) := by
  rw [Csv.writeRecords, List.flatMap_map]
  apply List.flatMap_congr
  intro row _
  rw [csvLine, dictToList_eq]

/-- Once there is a writer, every row is a line. -/
theorem flatten_csvStream_some (cols : List String) (rows : List (ExportRow F)) :
    (csvStream num dumps fieldnames (some cols) rows).flatten =
      rows.flatMap (csvLine num dumps cols) := by
  induction rows with
  | nil => rfl
  | cons row rest ih => rw [csvStream, List.flatten_cons, ih, List.flatMap_cons]

/-- The stream is the text. -/
theorem flatten_csvStream (rows : List (ExportRow F)) :
    (csvStream num dumps fieldnames none rows).flatten = csvResponse num dumps rows fieldnames := by
  cases rows with
  | nil => rfl
  | cons first rest =>
      rw [csvStream, List.flatten_cons, flatten_csvStream_some, List.append_assoc]
      rfl

/-- The records of a download. -/
def exportedRecords (num : PyNumbers F) (dumps : PyValue F → String) (first : ExportRow F)
    (rest : List (ExportRow F)) (fieldnames : Option (List String)) : List (List Csv.Field) :=
  let cols := csvFieldnames first fieldnames
  csvHeader cols :: (first :: rest).map (exportedRecord num dumps cols)

theorem csvResponse_eq (first : ExportRow F) (rest : List (ExportRow F)) :
    csvResponse num dumps (first :: rest) fieldnames =
      Csv.writeRecords (exportedRecords num dumps first rest fieldnames) := by
  rw [csvResponse, flatMap_csvLine]
  rfl

/-- **A download can be read.**  The chunks of the stream are the text of the
plain response; reading it gives a header of the columns, each once, that names
every key of the first row, and a record for each row with the texts of its
values; and of a stream that breaks off, the first of these records. -/
theorem read_csvStream (num : PyNumbers F) (dumps : PyValue F → String) (first : ExportRow F)
    (rest : List (ExportRow F)) (fieldnames : Option (List String)) :
    let text := (csvStream num dumps fieldnames none (first :: rest)).flatten
    let records := exportedRecords num dumps first rest fieldnames
    text = csvResponse num dumps (first :: rest) fieldnames ∧
      Csv.read text = some records ∧
      (csvFieldnames first fieldnames).Nodup ∧
      (∀ col, col ∈ csvFieldnames first fieldnames ↔
        col ∈ first.map Prod.fst ∨ ∃ names, fieldnames = some names ∧ col ∈ names) ∧
      ∀ part, part <+: text →
        ∃ r : Csv.Reader, Csv.Reader.feedAll {} part = some r ∧ r.records <+: records := by
  have htext : (csvStream num dumps fieldnames none (first :: rest)).flatten =
      csvResponse num dumps (first :: rest) fieldnames := flatten_csvStream (first :: rest)
  have hrecords : csvResponse num dumps (first :: rest) fieldnames =
      Csv.writeRecords (exportedRecords num dumps first rest fieldnames) :=
        csvResponse_eq first rest
  refine ⟨htext, ?_, ?_, ?_, fun part hpart => ?_⟩
  · rw [htext, hrecords, Csv.read_writeRecords]
  · have hnodup := nodup_map_distinctOn id (first.map Prod.fst ++ fieldnames.getD [])
    rwa [List.map_id] at hnodup
  · intro col
    rw [csvFieldnames, mem_distinctOn_of_injective Function.injective_id, List.mem_append]
    cases fieldnames with
    | none => simp
    | some names => simp
  · rw [htext, hrecords] at hpart
    exact Csv.records_of_cut hpart

end Export

end Nebularr
