import Mathlib.Data.List.Basic

/-!
# Comma-separated values

Records of text fields as a text: fields are quoted where they have to be, and
every record ends its line.  A reader goes through the text character by
character, and refuses what is not of this form.

What was written is read as it was (`read_writeRecords`), whatever the fields
contain.
-/

namespace Csv

abbrev Field := List Char

/-- The double quote. -/
def quote : Char := '\x22'

/-! ## Writing -/

/-- The characters that a field without quotes cannot contain. -/
def isSpecial (c : Char) : Bool := c == ',' || c == quote || c == '\r' || c == '\n'

/-- A quote in a quoted field is doubled. -/
def escape (field : Field) : List Char :=
  field.flatMap fun c => if c = quote then [quote, quote] else [c]

def quoted (field : Field) : List Char := quote :: escape field ++ [quote]

/-- Quotes only where they are needed. -/
def writeField (field : Field) : List Char := if field.any isSpecial then quoted field else field

/-- A record and the end of its line.  A single empty field is quoted, as the
line would be empty. -/
def writeRecord (record : List Field) : List Char :=
  (if record = [[]] then quoted [] else [','].intercalate (record.map writeField)) ++ ['\r', '\n']

def writeRecords (records : List (List Field)) : List Char := records.flatMap writeRecord

/-! ## Reading -/

inductive Mode
  | startRecord
  | startField
  | inField
  | inQuotes
  /-- After a quote in a quoted field. -/
  | afterQuote
  | afterReturn
deriving DecidableEq

structure Reader where
  records : List (List Field) := []
  fields : List Field := []
  field : Field := []
  mode : Mode := .startRecord

namespace Reader

def add (r : Reader) (c : Char) (mode : Mode) : Reader :=
  { r with field := r.field ++ [c], mode := mode }

def endField (r : Reader) (mode : Mode) : Reader :=
  { r with fields := r.fields ++ [r.field], field := [], mode := mode }

def endRecord (r : Reader) : Reader :=
  { r with records := r.records ++ [r.fields], fields := [], mode := .startRecord }

/-- Outside of quotes; `start` where no character of the field was read. -/
def plain (r : Reader) (start : Bool) (c : Char) : Option Reader :=
  if c = ',' then some (r.endField .startField)
  else if c = '\r' then some (r.endField .afterReturn)
  else if c = '\n' then none
  else if c = quote then if start then some { r with mode := .inQuotes } else none
  else some (r.add c .inField)

/-- One character; `none` where it cannot stand. -/
def feed (r : Reader) (c : Char) : Option Reader :=
  match r.mode with
  | .startRecord => if c = '\r' then some { r with mode := .afterReturn } else r.plain true c
  | .startField => r.plain true c
  | .inField => r.plain false c
  | .inQuotes => if c = quote then some { r with mode := .afterQuote } else some (r.add c .inQuotes)
  | .afterQuote =>
      if c = quote then some (r.add c .inQuotes)
      else if c = ',' ∨ c = '\r' then r.plain false c
      else none
  | .afterReturn => if c = '\n' then some r.endRecord else none

def feedAll (r : Reader) : List Char → Option Reader
  | [] => some r
  | c :: rest => (r.feed c).bind fun r' => r'.feedAll rest

end Reader

/-- The records of a text; `none` unless every line of it has ended. -/
def read (text : List Char) : Option (List (List Field)) :=
  (Reader.feedAll {} text).bind fun r => if r.mode = .startRecord then some r.records else none

/-! ## What was written is read -/

variable {r r' : Reader} {text text' : List Char} {field : Field} {c : Char}

namespace Reader

theorem feedAll_append :
    r.feedAll (text ++ text') = (r.feedAll text).bind fun r' => r'.feedAll text' := by
  induction text generalizing r with
  | nil => rfl
  | cons c rest ih =>
      rw [List.cons_append, feedAll, feedAll, Option.bind_assoc]
      simp only [ih]

theorem feedAll_cons_of_feed (h : r.feed c = some r') :
    r.feedAll (c :: text) = r'.feedAll text := by
  rw [feedAll, h, Option.bind_some]

theorem feedAll_append_of_feedAll (h : r.feedAll text = some r') :
    r.feedAll (text ++ text') = r'.feedAll text' := by
  rw [feedAll_append, h, Option.bind_some]

/-- A reader that stands where a field begins. -/
def AtField (r : Reader) : Prop := (r.mode = .startRecord ∨ r.mode = .startField) ∧ r.field = []

/-- `r'` has read a field where `r` stood; whatever ends the field will end it. -/
structure HasRead (r : Reader) (field : Field) (r' : Reader) : Prop where
  records : r'.records = r.records
  fields : r'.fields = r.fields
  field : r'.field = field
  comma : r'.feed ',' = some (r'.endField .startField)
  /-- Only a line on which nothing stands is not a record of one field. -/
  carriage : r.mode = .startField ∨ r' ≠ r → r'.feed '\r' = some (r'.endField .afterReturn)

theorem feedAll_plain (hmode : r.mode = .inField) (h : field.any isSpecial = false) :
    r.feedAll field = some { r with field := r.field ++ field } := by
  induction field generalizing r with
  | nil => rw [List.append_nil]; rfl
  | cons c rest ih =>
      rw [List.any_cons, Bool.or_eq_false_iff] at h
      obtain ⟨hc, hrest⟩ := h
      simp only [isSpecial, Bool.or_eq_false_iff, beq_eq_false_iff_ne] at hc
      obtain ⟨⟨⟨hcomma, hquote⟩, hreturn⟩, hfeed⟩ := hc
      have hadd : r.feed c = some (r.add c .inField) := by
        rw [feed, hmode]
        simp only [plain, if_neg hcomma, if_neg hquote, if_neg hreturn, if_neg hfeed]
      rw [feedAll_cons_of_feed hadd, ih rfl hrest, add, hmode, List.append_assoc]
      rfl

theorem feedAll_escape (hmode : r.mode = .inQuotes) :
    r.feedAll (escape field) = some { r with field := r.field ++ field } := by
  induction field generalizing r with
  | nil =>
      rw [List.append_nil]
      rfl
  | cons c rest ih =>
      have hlater : (r.add c .inQuotes).feedAll (escape rest) =
          some { r with field := r.field ++ c :: rest } := by
        rw [ih rfl, add, hmode, List.append_assoc]
        rfl
      rw [escape, List.flatMap_cons]
      by_cases hc : c = quote
      · have hfirst : r.feed quote = some { r with mode := .afterQuote } := by
          rw [feed, hmode]
          exact if_pos rfl
        have hsecond : ({ r with mode := .afterQuote } : Reader).feed quote =
          some (r.add quote .inQuotes) := rfl
        rw [if_pos hc, List.cons_append, List.cons_append, List.nil_append,
          feedAll_cons_of_feed hfirst,
          feedAll_cons_of_feed hsecond]
        rw [hc] at hlater ⊢
        exact hlater
      · have hadd : r.feed c = some (r.add c .inQuotes) := by
          rw [feed, hmode]
          exact if_neg hc
        rw [if_neg hc, List.cons_append, List.nil_append, feedAll_cons_of_feed hadd]
        exact hlater

/-- A quoted field is read. -/
theorem feedAll_quoted (hr : r.AtField) :
    ∃ r', r.feedAll (quoted field) = some r' ∧ r.HasRead field r' := by
  obtain ⟨hmode, hfield⟩ := hr
  have hopen : r.feed quote = some { r with mode := .inQuotes } := by
    obtain hmode | hmode := hmode <;> rw [feed, hmode] <;> rfl
  have hclose : ({ r with mode := .inQuotes, field := field } : Reader).feed quote =
      some { r with mode := .afterQuote, field := field } := rfl
  refine ⟨{ r with mode := .afterQuote, field := field }, ?_, rfl, rfl, rfl, rfl, fun _ => rfl⟩
  have hbody : ({ r with mode := .inQuotes } : Reader).feedAll (escape field) =
      some { r with mode := .inQuotes, field := field } := by
    rw [feedAll_escape rfl]
    simp only [hfield, List.nil_append]
  rw [quoted, List.cons_append, feedAll_cons_of_feed hopen, feedAll_append_of_feedAll hbody,
    feedAll_cons_of_feed hclose]
  rfl

/-- Any field is read. -/
theorem feedAll_writeField (field : Field) (hr : r.AtField) :
    ∃ r', r.feedAll (writeField field) = some r' ∧ r.HasRead field r' := by
  rw [writeField]
  cases hspecial : field.any isSpecial with
  | true => exact feedAll_quoted hr
  | false =>
      rw [if_neg Bool.false_ne_true]
      obtain ⟨hmode, hfield⟩ := hr
      cases field with
      | nil =>
          refine ⟨r, rfl, rfl, rfl, hfield, ?_, fun hstart => ?_⟩
          · obtain hmode | hmode := hmode <;> rw [feed, hmode] <;> rfl
          · obtain hstart | hne := hstart
            · rw [feed, hstart]
              rfl
            · exact absurd rfl hne
      | cons c rest =>
          rw [List.any_cons, Bool.or_eq_false_iff] at hspecial
          obtain ⟨hc, hrest⟩ := hspecial
          simp only [isSpecial, Bool.or_eq_false_iff, beq_eq_false_iff_ne] at hc
          obtain ⟨⟨⟨hcomma, hquote⟩, hreturn⟩, hfeed⟩ := hc
          have hplain : r.plain true c = some (r.add c .inField) := by
            simp only [plain, if_neg hcomma, if_neg hquote, if_neg hreturn, if_neg hfeed]
          have hadd : r.feed c = some (r.add c .inField) := by
            obtain hmode | hmode := hmode
            · rw [feed, hmode]
              simp only [if_neg hreturn, hplain]
            · rw [feed, hmode]
              exact hplain
          refine ⟨{ r with mode := .inField, field := c :: rest }, ?_, rfl, rfl, rfl, rfl,
            fun _ => rfl⟩
          rw [feedAll_cons_of_feed hadd, feedAll_plain rfl hrest, add, hfield]
          rfl

/-- The reader after a record whose line has not ended. -/
theorem feedAll_fields {record : List Field} (hr : r.AtField) (hne : record ≠ [])
    (hline : r.mode = .startField ∨ record ≠ [[]]) :
    ∃ r', r.feedAll ([','].intercalate (record.map writeField)) = some r' ∧
      r'.feed '\r' =
        some { records := r.records, fields := r.fields ++ record, mode := .afterReturn } := by
  induction record generalizing r with
  | nil => exact absurd rfl hne
  | cons field rest ih =>
      obtain ⟨r₁, hfield, hread⟩ := feedAll_writeField field hr
      cases rest with
      | nil =>
          refine ⟨r₁, ?_, ?_⟩
          · simpa [List.intercalate] using hfield
          · have hstart : r.mode = .startField ∨ r₁ ≠ r := by
              refine hline.imp_right fun hrecord heq => hrecord ?_
              rw [← hread.field, heq, hr.2]
            rw [hread.carriage hstart, endField, hread.records, hread.fields, hread.field]
      | cons next rest =>
          have hnext : (r₁.endField .startField).AtField := ⟨Or.inr rfl, rfl⟩
          obtain ⟨r', hrest, hreturn⟩ := ih hnext (List.cons_ne_nil next rest) (Or.inl rfl)
          refine ⟨r', ?_, ?_⟩
          · have hsplit : [','].intercalate ((field :: next :: rest).map writeField) =
                writeField field ++ ',' :: [','].intercalate ((next :: rest).map writeField) := by
              simp [List.intercalate]
            rw [hsplit, feedAll_append_of_feedAll hfield, feedAll_cons_of_feed hread.comma]
            exact hrest
          · rw [hreturn, endField, hread.records, hread.fields, hread.field, List.append_assoc]
            rfl

/-- A record is read. -/
theorem feedAll_writeRecord {records : List (List Field)} (record : List Field) :
    Reader.feedAll { records := records } (writeRecord record) =
      some { records := records ++ [record] } := by
  rw [writeRecord]
  split
  · next hempty =>
      rw [hempty]
      rfl
  · next hempty =>
      cases record with
      | nil => rfl
      | cons field rest =>
          have hstart : ({ records := records } : Reader).AtField := ⟨Or.inl rfl, rfl⟩
          obtain ⟨r', hfields, hreturn⟩ :=
            feedAll_fields hstart (List.cons_ne_nil field rest) (Or.inr hempty)
          rw [feedAll_append_of_feedAll hfields, feedAll_cons_of_feed hreturn]
          rfl

theorem feedAll_writeRecords {records before : List (List Field)} :
    Reader.feedAll { records := before } (writeRecords records) =
      some { records := before ++ records } := by
  induction records generalizing before with
  | nil => rw [List.append_nil]; rfl
  | cons record rest ih =>
      rw [writeRecords, List.flatMap_cons, feedAll_append_of_feedAll (feedAll_writeRecord record)]
      rw [List.append_cons before record rest]
      exact ih

/-- A record that was read stays. -/
theorem records_feed (h : r.feed c = some r') : r.records <+: r'.records := by
  have hplain : ∀ start, r.plain start c = some r' → r.records <+: r'.records := by
    intro start h
    simp only [plain] at h
    split at h
    · obtain rfl := Option.some.inj h
      exact List.prefix_rfl
    · split at h
      · obtain rfl := Option.some.inj h
        exact List.prefix_rfl
      · split at h
        · exact nomatch h
        · split at h
          · obtain ⟨-, hopen⟩ := Option.ite_none_right_eq_some.mp h
            obtain rfl := Option.some.inj hopen
            exact List.prefix_rfl
          · obtain rfl := Option.some.inj h
            exact List.prefix_rfl
  simp only [feed] at h
  split at h
  · split at h
    · obtain rfl := Option.some.inj h
      exact List.prefix_rfl
    · exact hplain true h
  · exact hplain true h
  · exact hplain false h
  · split at h
    · obtain rfl := Option.some.inj h
      exact List.prefix_rfl
    · obtain rfl := Option.some.inj h
      exact List.prefix_rfl
  · split at h
    · obtain rfl := Option.some.inj h
      exact List.prefix_rfl
    · obtain ⟨-, hrest⟩ := Option.ite_none_right_eq_some.mp h
      exact hplain false hrest
  · obtain ⟨-, hend⟩ := Option.ite_none_right_eq_some.mp h
    obtain rfl := Option.some.inj hend
    exact List.prefix_append _ _

theorem records_feedAll (h : r.feedAll text = some r') : r.records <+: r'.records := by
  induction text generalizing r with
  | nil =>
      obtain rfl := Option.some.inj h
      exact List.prefix_rfl
  | cons c rest ih =>
      obtain ⟨r₁, hfirst, hrest⟩ := Option.bind_eq_some_iff.mp h
      exact (records_feed hfirst).trans (ih hrest)

end Reader

/-- **The round trip.** -/
theorem read_writeRecords (records : List (List Field)) :
    read (writeRecords records) = some records := by
  rw [read, Reader.feedAll_writeRecords, Option.bind_some, if_pos rfl, List.nil_append]

/-- Where a text breaks off, the records read are the first of those written. -/
theorem records_of_cut {records : List (List Field)} (hcut : text <+: writeRecords records) :
    ∃ r : Reader, Reader.feedAll {} text = some r ∧ r.records <+: records := by
  obtain ⟨rest, hrest⟩ := hcut
  have hall : Reader.feedAll {} (text ++ rest) = some { records := records } := by
    rw [hrest, Reader.feedAll_writeRecords, List.nil_append]
  rw [Reader.feedAll_append] at hall
  obtain ⟨r, htext, hlater⟩ := Option.bind_eq_some_iff.mp hall
  exact ⟨r, htext, Reader.records_feedAll hlater⟩

end Csv
