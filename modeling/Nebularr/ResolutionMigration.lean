import Nebularr.MediaColumns
import Nebularr.PythonValues

/-!
# The resolution, extracted and re-derived

The upserts extract a file's resolution in Python, and migration 0013 derives it
again from the stored payload in SQL.  Both ask the same sources in the same
order.  They part over what a source is: a tier given as text counts in SQL
only, and Python reads more characters as digits and other texts off a name that
is no text.
-/

namespace Nebularr

variable {F : Type}

/-- A JSON object. -/
abbrev PyFields (F : Type) := List (String × PyValue F)

/-! ## The extractor -/

/-- A number that is taken for a tier. -/
def TierRange (n : Int) : Prop := 240 ≤ n ∧ n ≤ 4320

instance (n : Int) : Decidable (TierRange n) := inferInstanceAs (Decidable (_ ∧ _))

/-- A tier that is an `int`, and no `bool`, in range. -/
def declaredTier : Option (PyValue F) → Option Int
  | some (.int n) => if TierRange n then some n else none
  | _ => none

/-- The tier of a frame: by its width, or else its height. -/
def frameTier (cls : TextClasses) (frame : List Char) : Option Int :=
  ((frameWidth cls frame).bind tierFromWidth).or (frameHeight cls frame)

section Extractor

variable (num : PyNumbers F)

/-- `value or {}`. -/
def orEmpty (value : Option (PyValue F)) : PyValue F := (value.filter num.truthy).getD (.obj [])

/-- `str(value or "")`. -/
def textOrEmpty (value : Option (PyValue F)) : String :=
  ((value.filter num.truthy).map num.str).getD ""

/-- `value.get(key)`, which only a dictionary has. -/
def getKey (value : PyValue F) (key : String) : Except String (Option (PyValue F)) :=
  match value with
  | .obj fields => .ok (fields.lookup key)
  | _ => .error "AttributeError: get"

/-- `_extract_video_resolution`, of any JSON. -/
def extractResolution (row : PyFields F) : Except String (Option Int) := do
  let quality ← getKey (orEmpty num (row.lookup "quality")) "quality"
  let tier ← getKey (orEmpty num quality) "resolution"
  match declaredTier tier with
  | some declared => return some declared
  | none =>
      let name ← getKey (orEmpty num quality) "name"
      match searchTier pythonClasses (textOrEmpty num name).toList with
      | some named => return some named
      | none =>
          let resolution ← getKey (orEmpty num (row.lookup "mediaInfo")) "resolution"
          return frameTier pythonClasses (textOrEmpty num resolution).toList

end Extractor

/-! ## The migration -/

/-- `[0-9]`. -/
def asciiDigit (c : Char) : Option ℕ := if c.isDigit then some (c.toNat - '0'.toNat) else none

/-- What of Postgres depends on the database: the texts of numbers and of what
holds others, and `[[:space:]]`. -/
structure PgTexts (F : Type) where
  realText : F → String
  containerText : PyValue F → String
  classes : TextClasses
  digit_eq : classes.digit = asciiDigit

/-- `value -> key`: null but of an object. -/
def field (value : Option (PyValue F)) (key : String) : Option (PyValue F) :=
  match value with
  | some (.obj fields) => fields.lookup key
  | _ => none

section Migration

variable (pg : PgTexts F)

/-- The text that `->>` makes of a value. -/
def PgTexts.text : Option (PyValue F) → Option String
  | none => none
  | some .null => none
  | some (.bool true) => some "true"
  | some (.bool false) => some "false"
  | some (.int n) => some (toString n)
  | some (.real x) => some (pg.realText x)
  | some (.str text) => some text
  | some value => some (pg.containerText value)

/-- `::int`, of a number that is read off digits. -/
def castInt : Option Int → Except String (Option Int)
  | none => .ok none
  | some n => if n ≤ 2147483647 then .ok (some n) else .error "integer out of range"

/-- `text ~ '^[0-9]{3,4}$'`. -/
def isTierText (text : List Char) : Bool :=
  text.all pg.classes.isDigit && (text.length = 3 || text.length = 4)

/-- The case of `arr_tier`. -/
def arrTier (text : Option String) : Except String (Option Int) := do
  let digits := (text.map String.toList).filter fun digits => isTierText pg digits
  let tier ← castInt (digits.map pg.classes.value)
  return tier.filter fun n => TierRange n

/-- `coalesce`: the first value that is not null; nothing after it is looked at. -/
def coalesce {α : Type} : List (Except String (Option α)) → Except String (Option α)
  | [] => .ok none
  | value :: rest => do
      match ← value with
      | some a => return some a
      | none => coalesce rest

/-- `_rederive_sql`: the `video_resolution` of a row after the update. -/
def rederive (payload : PyFields F) (videoResolution : Option Int) : Except String (Option Int) :=
  let quality := field (field (some (.obj payload)) "quality") "quality"
  let name := (pg.text (field quality "name")).map String.toList
  let resolution := (pg.text (field (field (some (.obj payload)) "mediaInfo") "resolution")).map
    String.toList
  coalesce [
    arrTier pg (pg.text (field quality "resolution")),
    castInt (name.bind (searchTier pg.classes)),
    (castInt (resolution.bind (frameWidth pg.classes))).map fun width => width.bind tierFromWidth,
    castInt (resolution.bind (frameHeight pg.classes)),
    .ok videoResolution]

end Migration

/-! ## Two readings of a list of sources -/

section Readings

variable {α : Type}

/-- Where one of two readings first finds something, the other finds the same
there, or does not, and finds the same next. -/
inductive FirstAlike : List (Option α × Option α) → Prop
  | nil : FirstAlike []
  | neither {rest : List (Option α × Option α)} (h : FirstAlike rest) :
      FirstAlike ((none, none) :: rest)
  | both (a : α) (rest : List (Option α × Option α)) : FirstAlike ((some a, some a) :: rest)
  | first {a : α} {rest : List (Option α × Option α)} (h : rest.findSome? Prod.snd = some a) :
      FirstAlike ((some a, none) :: rest)
  | second {a : α} {rest : List (Option α × Option α)} (h : rest.findSome? Prod.fst = some a) :
      FirstAlike ((none, some a) :: rest)

/-- The first value is the head's, or else that of the rest. -/
theorem findSome?_cons_eq_or {β : Type} (f : β → Option α) (b : β) (rest : List β) :
    (b :: rest).findSome? f = (f b).or (rest.findSome? f) := by
  rw [List.findSome?_cons]
  cases f b <;> rfl

/-- **Two readings find the same first.** -/
theorem findSome?_fst_eq_snd_iff (readings : List (Option α × Option α)) :
    readings.findSome? Prod.fst = readings.findSome? Prod.snd ↔ FirstAlike readings := by
  induction readings with
  | nil => exact iff_of_true rfl .nil
  | cons reading rest ih =>
      obtain ⟨left, right⟩ := reading
      cases left with
      | none =>
          cases right with
          | none =>
              refine ih.trans ⟨.neither, fun h => ?_⟩
              cases h with
              | neither h => exact h
          | some b =>
              refine ⟨fun h => .second h, fun h => ?_⟩
              cases h with
              | second h => exact h
      | some a =>
          cases right with
          | none =>
              refine ⟨fun h => .first h.symm, fun h => ?_⟩
              cases h with
              | first h => exact h.symm
          | some b =>
              constructor
              · intro h
                obtain rfl := Option.some.inj h
                exact .both a rest
              · intro h
                cases h with
                | both => rfl

end Readings

/-! ## What the two come to -/

/-- The tier that a text of digits spells. -/
def spelledTier (pg : PgTexts F) (text : Option String) : Option Int :=
  (((text.map String.toList).filter fun digits => isTierText pg digits).map
    pg.classes.value).filter fun n => TierRange n

/-- The values that both look at. -/
structure ResolutionSources (F : Type) where
  tier : Option (PyValue F)
  name : Option (PyValue F)
  frame : Option (PyValue F)

def resolutionSources (row : PyFields F) : ResolutionSources F :=
  let quality := field (field (some (.obj row)) "quality") "quality"
  ⟨field quality "resolution", field quality "name",
    field (field (some (.obj row)) "mediaInfo") "resolution"⟩

/-- What each of the sources comes to, in the extractor and in the update. -/
def resolutionReadings (num : PyNumbers F) (pg : PgTexts F) (sources : ResolutionSources F) :
    List (Option Int × Option Int) :=
  let name := (textOrEmpty num sources.name).toList
  let frame := (textOrEmpty num sources.frame).toList
  let pgName := ((pg.text sources.name).getD "").toList
  let pgFrame := ((pg.text sources.frame).getD "").toList
  [(declaredTier sources.tier, spelledTier pg (pg.text sources.tier)),
    (searchTier pythonClasses name, searchTier pg.classes pgName),
    ((frameWidth pythonClasses frame).bind tierFromWidth,
      (frameWidth pg.classes pgFrame).bind tierFromWidth),
    (frameHeight pythonClasses frame, frameHeight pg.classes pgFrame)]

section Results

variable {num : PyNumbers F} {pg : PgTexts F} {row : PyFields F}

/-- Where `get` answers, it answers what `->` does. -/
theorem field_of_getKey {value found : Option (PyValue F)} {key : String}
    (h : getKey (orEmpty num value) key = .ok found) : found = field value key := by
  unfold orEmpty at h
  cases value with
  | none => exact (Except.ok.inj h).symm
  | some value =>
      by_cases htruthy : num.truthy value = true
      · rw [Option.filter_some_pos htruthy, Option.getD_some] at h
        cases value with
        | obj fields => exact (Except.ok.inj h).symm
        | _ => cases h
      · rw [Option.filter_some_neg (Bool.not_eq_true _ ▸ htruthy), Option.getD_none] at h
        have hnone := (Except.ok.inj h).symm
        cases value with
        | obj fields =>
            cases fields with
            | nil => exact hnone
            | cons first rest => exact absurd rfl htruthy
        | _ => exact hnone

/-- **What the extractor returns.** -/
theorem extractResolution_eq (pg : PgTexts F) {r : Option Int}
    (h : extractResolution num row = .ok r) :
    r = (resolutionReadings num pg (resolutionSources row)).findSome? Prod.fst := by
  obtain ⟨quality, hquality, h⟩ := exists_of_bind_ok h
  obtain ⟨tier, htier, h⟩ := exists_of_bind_ok h
  obtain rfl := field_of_getKey hquality
  obtain rfl := field_of_getKey htier
  have htier : (resolutionSources row).tier =
      field (field (row.lookup "quality") "quality") "resolution" := rfl
  have hname : (resolutionSources row).name =
      field (field (row.lookup "quality") "quality") "name" := rfl
  rw [← htier] at h
  cases hdeclared : declaredTier (resolutionSources row).tier with
  | some declared =>
      rw [hdeclared] at h
      simp [resolutionReadings, hdeclared, (Except.ok.inj h).symm]
  | none =>
      rw [hdeclared] at h
      obtain ⟨name, hgot, h⟩ := exists_of_bind_ok h
      obtain rfl := field_of_getKey hgot
      rw [← hname] at h
      cases hnamed : searchTier pythonClasses
          (textOrEmpty num (resolutionSources row).name).toList with
      | some named =>
          rw [hnamed] at h
          simp [resolutionReadings, hdeclared, hnamed, (Except.ok.inj h).symm]
      | none =>
          rw [hnamed] at h
          obtain ⟨frame, hframe, h⟩ := exists_of_bind_ok h
          obtain rfl := field_of_getKey hframe
          have hlast : frameTier pythonClasses
              (textOrEmpty num (resolutionSources row).frame).toList = r := Except.ok.inj h
          simp [resolutionReadings, findSome?_cons_eq_or, hdeclared, hnamed, ← hlast, frameTier]

/-! ## The migration succeeds -/

/-- A number within the range of `int` is cast to itself. -/
theorem castInt_of_le {n : Option Int} (h : ∀ k, n = some k → k ≤ 2147483647) :
    castInt n = .ok n := by
  cases n with
  | none => rfl
  | some k => exact if_pos (h k rfl)

/-- A tier that is found has four digits at most. -/
theorem searchTier_lt {cls : TextClasses} {text : List Char} {n : Int}
    (h : searchTier cls text = some n) : n < 10000 := by
  induction text with
  | nil => cases h
  | cons c rest ih =>
      rcases Option.or_eq_some_iff.mp h with hhead | ⟨_, hrest⟩
      · obtain ⟨digits, _, _, _, _, hlength, _, rfl⟩ := tierAt_eq_some_iff.mp hhead
        have hbound := (cls.value_bounds digits).2
        rcases hlength with hlength | hlength <;> rw [hlength] at hbound <;> omega
      · exact ih hrest

/-- A width that is found has five digits at most. -/
theorem frameWidth_lt {cls : TextClasses} {text : List Char} {n : Int}
    (h : frameWidth cls text = some n) : n < 100000 := by
  obtain ⟨_, digits, _, _, _, _, _, _, hlow, hhigh, rfl⟩ := frameWidth_eq_some_iff.mp h
  have hbound := (cls.value_bounds digits).2
  have hlength : digits.length = 3 ∨ digits.length = 4 ∨ digits.length = 5 := by omega
  rcases hlength with hlength | hlength | hlength <;> rw [hlength] at hbound <;> omega

/-- A height that is found has four digits at most. -/
theorem frameHeight_lt {cls : TextClasses} {text : List Char} {n : Int}
    (h : frameHeight cls text = some n) : n < 10000 := by
  induction text with
  | nil => cases h
  | cons c rest ih =>
      unfold frameHeight at h
      dsimp only at h
      split at h
      · rename_i hcond
        simp only [Bool.and_eq_true, Bool.or_eq_true, decide_eq_true_iff] at hcond
        obtain rfl := Option.some.inj h
        have hbound := (cls.value_bounds ((rest.dropWhile cls.space).takeWhile cls.isDigit)).2
        rcases hcond.1.2 with hlength | hlength <;> rw [hlength] at hbound <;> omega
      · exact ih h

/-- The first value that is not null, once each is worked out. -/
theorem coalesce_cons {α : Type} {rest : List (Except String (Option α))} {last : Option α}
    (h : coalesce rest = .ok last) (value : Option α) :
    coalesce (.ok value :: rest) = .ok (value.or last) := by
  cases value with
  | none => exact h
  | some a => rfl

/-- The tier of the migration raises nothing. -/
theorem arrTier_eq (text : Option String) : arrTier pg text = .ok (spelledTier pg text) := by
  have hcast : castInt (((text.map String.toList).filter fun digits => isTierText pg digits).map
      pg.classes.value) = .ok (((text.map String.toList).filter fun digits =>
        isTierText pg digits).map pg.classes.value) := by
    apply castInt_of_le
    intro k hk
    obtain ⟨digits, hdigits, rfl⟩ := Option.map_eq_some_iff.mp hk
    have htier := (Option.filter_eq_some_iff.mp hdigits).2
    rw [isTierText, Bool.and_eq_true, Bool.or_eq_true, decide_eq_true_iff, decide_eq_true_iff]
      at htier
    have hbound := (pg.classes.value_bounds digits).2
    rcases htier.2 with hlength | hlength <;> rw [hlength] at hbound <;> omega
  rw [arrTier, hcast]
  rfl

/-- **The update succeeds, and sets the first tier it finds.** -/
theorem rederive_eq (num : PyNumbers F) (previous : Option Int) :
    rederive pg row previous =
      .ok (((resolutionReadings num pg (resolutionSources row)).findSome? Prod.snd).or
        previous) := by
  have htext : ∀ f : List Char → Option Int, f [] = none → ∀ text : Option String,
      (text.map String.toList).bind f = f (text.getD "").toList := by
    intro f hnone text
    cases text with
    | none => exact hnone.symm
    | some text => rfl
  have hname : ∀ text : Option String,
      castInt ((text.map String.toList).bind (searchTier pg.classes)) =
        .ok (searchTier pg.classes (text.getD "").toList) := by
    intro text
    rw [htext _ rfl]
    exact castInt_of_le fun n hn => (searchTier_lt hn).le.trans (by decide)
  have hwidth : ∀ text : Option String,
      (castInt ((text.map String.toList).bind (frameWidth pg.classes))).map
          (fun width => width.bind tierFromWidth) =
        .ok ((frameWidth pg.classes (text.getD "").toList).bind tierFromWidth) := by
    intro text
    rw [htext _ rfl, castInt_of_le fun n hn => (frameWidth_lt hn).le.trans (by decide)]
    rfl
  have hheight : ∀ text : Option String,
      castInt ((text.map String.toList).bind (frameHeight pg.classes)) =
        .ok (frameHeight pg.classes (text.getD "").toList) := by
    intro text
    rw [htext _ rfl]
    exact castInt_of_le fun n hn => (frameHeight_lt hn).le.trans (by decide)
  unfold rederive
  dsimp only
  rw [arrTier_eq, hname, hwidth, hheight,
    coalesce_cons
      (coalesce_cons (coalesce_cons (coalesce_cons (coalesce_cons rfl previous) _) _) _) _]
  simp only [resolutionReadings, findSome?_cons_eq_or, List.findSome?_nil, Option.or_none,
    Option.or_assoc]
  rfl

/-! ## A declared tier is spelled alike -/

/-- The database reads the digits of ASCII. -/
theorem digit_of_isDigit (pg : PgTexts F) {c : Char} (h : c.isDigit = true) :
    pg.classes.digit c = some (c.toNat - '0'.toNat) := by
  rw [pg.digit_eq, asciiDigit, if_pos h]

/-- It reads a decimal as what it says. -/
theorem value_eq_ofDigitChars {digits : List Char} (h : ∀ c ∈ digits, c.isDigit = true) :
    pg.classes.value digits = (Nat.ofDigitChars 10 digits 0 : ℕ) := by
  induction digits using List.reverseRecOn with
  | nil => rfl
  | append_singleton rest c ih =>
      have hrest := ih fun d hd => h d (List.mem_append_left _ hd)
      have hdigit := digit_of_isDigit pg (h c (by simp))
      rw [TextClasses.value_concat, hrest, hdigit, Nat.ofDigitChars_append, Nat.ofDigitChars_cons,
        Nat.ofDigitChars_nil, Option.getD_some]
      omega

/-- The sign is no digit. -/
theorem isTierText_negSucc (k : ℕ) :
    isTierText pg (toString (Int.negSucc k)).toList = false := by
  have hsign : (toString (Int.negSucc k)).toList = '-' :: (toString (k + 1)).toList := by
    show (String.append "-" (toString (k + 1))).toList = _
    exact String.toList_append
  rw [hsign, isTierText, List.all_cons, TextClasses.isDigit, pg.digit_eq]
  rfl

/-- The digits of a number spell it. -/
theorem value_toDigits (k : ℕ) : pg.classes.value (Nat.toDigits 10 k) = k := by
  have hdigits : ∀ c ∈ Nat.toDigits 10 k, c.isDigit = true := fun c hc =>
    Nat.isDigit_of_mem_toDigits (by decide) (by decide) hc
  rw [value_eq_ofDigitChars hdigits, Nat.ofDigitChars_ten_toDigits]

/-- A number in range has three or four digits. -/
theorem isTierText_toDigits {k : ℕ} (h : TierRange k) :
    isTierText pg (Nat.toDigits 10 k) = true := by
  have hall : (Nat.toDigits 10 k).all pg.classes.isDigit = true := by
    rw [List.all_eq_true]
    intro c hc
    rw [TextClasses.isDigit,
      digit_of_isDigit pg (Nat.isDigit_of_mem_toDigits (by decide) (by decide) hc)]
    rfl
  obtain ⟨hlow, hhigh⟩ := h
  have hshort : (Nat.toDigits 10 k).length ≤ 4 := by
    rw [Nat.length_toDigits_le_iff (by decide) (by decide)]
    omega
  have hlong : ¬ (Nat.toDigits 10 k).length ≤ 2 := by
    rw [Nat.length_toDigits_le_iff (by decide) (by decide)]
    omega
  have hlength : (Nat.toDigits 10 k).length = 3 ∨ (Nat.toDigits 10 k).length = 4 := by omega
  rw [isTierText, hall]
  simpa using hlength

/-- An integer is spelled as a tier when it is one. -/
theorem spelledTier_int (n : Int) :
    spelledTier pg (pg.text (some (.int n))) = declaredTier (some (.int n) :
      Option (PyValue F)) := by
  cases n with
  | negSucc k =>
      have hrange : ¬ TierRange (Int.negSucc k) := by
        intro h
        have hlow := h.1
        omega
      rw [spelledTier, PgTexts.text, Option.map_some, Option.filter_some_neg (isTierText_negSucc k),
        declaredTier, if_neg hrange]
      rfl
  | ofNat k =>
      have htext : (toString (Int.ofNat k)).toList = Nat.toDigits 10 k := Nat.toList_repr
      rw [spelledTier, PgTexts.text, Option.map_some, htext, declaredTier]
      by_cases hrange : TierRange (Int.ofNat k)
      · rw [Option.filter_some_pos (isTierText_toDigits hrange), Option.map_some, value_toDigits,
          if_pos hrange]
        exact Option.filter_some_pos (decide_eq_true hrange)
      · rw [if_neg hrange]
        cases htier : isTierText pg (Nat.toDigits 10 k) with
        | false =>
            rw [Option.filter_some_neg htier]
            rfl
        | true =>
            rw [Option.filter_some_pos htier, Option.map_some, value_toDigits]
            exact Option.filter_some_neg (decide_eq_false hrange)

/-- A tier that Python reads off a number is read off its text too. -/
theorem spelledTier_of_declaredTier {tier : Option (PyValue F)} {n : Int}
    (h : declaredTier tier = some n) : spelledTier pg (pg.text tier) = some n := by
  cases tier with
  | none => cases h
  | some value =>
      cases value with
      | int m => rw [spelledTier_int, h]
      | _ => cases h

/-! ## Agreement -/

/-- The update leaves what the extractor returned, or else what was there. -/
def Rederives (pg : PgTexts F) (row : PyFields F) (r : Option Int) : Prop :=
  ∀ previous, rederive pg row previous = .ok (r.or previous)

variable (num) in
/-- The migration re-derives the first of its readings. -/
theorem rederives_iff {r : Option Int} :
    Rederives pg row r ↔
      (resolutionReadings num pg (resolutionSources row)).findSome? Prod.snd = r := by
  constructor
  · intro hall
    have hnone := hall none
    rw [rederive_eq num, Option.or_none, Option.or_none] at hnone
    exact Except.ok.inj hnone
  · rintro rfl previous
    exact rederive_eq num previous

/-- It re-derives the resolution extracted if the first readings are alike. -/
theorem rederives_iff_firstAlike {r : Option Int} (h : extractResolution num row = .ok r) :
    Rederives pg row r ↔ FirstAlike (resolutionReadings num pg (resolutionSources row)) := by
  rw [rederives_iff num, ← findSome?_fst_eq_snd_iff, ← extractResolution_eq pg h, eq_comm]

/-- Readings that are the same throughout are alike at the first. -/
theorem firstAlike_of_same {α : Type} {readings : List (Option α × Option α)}
    (h : ∀ reading ∈ readings, reading.1 = reading.2) : FirstAlike readings := by
  rw [← findSome?_fst_eq_snd_iff]
  induction readings with
  | nil => rfl
  | cons reading rest ih =>
      rw [findSome?_cons_eq_or, findSome?_cons_eq_or, h reading List.mem_cons_self,
        ih fun other hother => h other (List.mem_cons_of_mem reading hother)]

/-- Both read one text off a value, of characters that they classify alike. -/
structure SameText (num : PyNumbers F) (pg : PgTexts F) (value : Option (PyValue F)) : Prop where
  text : (pg.text value).getD "" = textOrEmpty num value
  alike : pythonClasses.AlikeOn pg.classes (textOrEmpty num value).toList

/-- What a payload can be like: it declares its tier; or its tier, if it spells one
at all, is an integer, and both read one text off the name and the frame size. -/
def ReadAlike (num : PyNumbers F) (pg : PgTexts F) (sources : ResolutionSources F) : Prop :=
  (declaredTier sources.tier).isSome = true ∨
    ((spelledTier pg (pg.text sources.tier)).isSome = true → ∃ n, sources.tier = some (.int n)) ∧
      SameText num pg sources.name ∧ SameText num pg sources.frame

/-- Sources that are read alike give the same first reading. -/
theorem ReadAlike.firstAlike {sources : ResolutionSources F} (h : ReadAlike num pg sources) :
    FirstAlike (resolutionReadings num pg sources) := by
  rcases h with hdeclared | ⟨htier, hname, hframe⟩
  · obtain ⟨n, hn⟩ := Option.isSome_iff_exists.mp hdeclared
    unfold resolutionReadings
    dsimp only
    rw [hn, spelledTier_of_declaredTier hn]
    exact .both n _
  · have hsame : declaredTier sources.tier = spelledTier pg (pg.text sources.tier) := by
      cases hspelled : spelledTier pg (pg.text sources.tier) with
      | none =>
          cases hdeclared : declaredTier sources.tier with
          | none => rfl
          | some n =>
              rw [spelledTier_of_declaredTier hdeclared] at hspelled
              cases hspelled
      | some n =>
          obtain ⟨m, hm⟩ := htier (by rw [hspelled]; rfl)
          rw [← hspelled, hm, spelledTier_int]
    apply firstAlike_of_same
    unfold resolutionReadings
    dsimp only
    rw [hname.text, hframe.text, hsame, searchTier_congr hname.alike, frameWidth_congr hframe.alike,
      frameHeight_congr hframe.alike]
    simp

/-- A tier that is spelled is what the update sets. -/
theorem rederives_iff_of_spelled (num : PyNumbers F) {r : Option Int} {n : Int}
    (hspelled : spelledTier pg (pg.text (resolutionSources row).tier) = some n) :
    Rederives pg row r ↔ r = some n := by
  rw [rederives_iff num, resolutionReadings, findSome?_cons_eq_or]
  dsimp only
  rw [hspelled, Option.some_or, eq_comm]

/-- **When the migration agrees with the extractor**: source by source, exactly;
always on payloads that both read alike; and where a tier is spelled but not
declared, only if it is what the extractor found elsewhere. -/
theorem rederive_agrees_iff {r : Option Int} (h : extractResolution num row = .ok r) :
    (Rederives pg row r ↔ FirstAlike (resolutionReadings num pg (resolutionSources row))) ∧
      (ReadAlike num pg (resolutionSources row) → Rederives pg row r) ∧
      ∀ n, spelledTier pg (pg.text (resolutionSources row).tier) = some n →
        (Rederives pg row r ↔ r = some n) :=
  ⟨rederives_iff_firstAlike h, fun halike => (rederives_iff_firstAlike h).mpr halike.firstAlike,
    fun _ hspelled => rederives_iff_of_spelled num hspelled⟩

/-! ## The payloads that the upserts read -/

/-- A text, or null. -/
def textOrNull (value : Option String) : PyValue F :=
  match value with
  | some text => .str text
  | none => .null

/-- An integer, or null. -/
def intOrNull (value : Option Int) : PyValue F :=
  match value with
  | some n => .int n
  | none => .null

/-- The blocks of a file that are looked at, as JSON. -/
def FilePayload.fields (file : FilePayload) : PyFields F :=
  [("quality", .obj [("quality", .obj [("name", textOrNull file.quality.name),
      ("resolution", intOrNull file.quality.resolution)])]),
    ("mediaInfo", .obj [("resolution", textOrNull file.mediaInfo.resolution)])]

/-- A text or null, read as a text, null as the empty one. -/
theorem textOrEmpty_textOrNull (value : Option String) :
    textOrEmpty num (some (textOrNull value)) = value.getD "" := by
  cases value with
  | none => rfl
  | some text =>
      by_cases hempty : text = ""
      · subst hempty
        rfl
      · have htruthy : num.truthy (.str text) = true := decide_eq_true hempty
        rw [textOrNull, textOrEmpty, Option.filter_some_pos htruthy]
        rfl

/-- A tier or null, read as a tier within its range. -/
theorem declaredTier_intOrNull (tier : Option Int) :
    declaredTier (some (intOrNull tier : PyValue F)) =
      tier.filter fun n => 240 ≤ n && n ≤ 4320 := by
  cases tier with
  | none => rfl
  | some n =>
      rw [intOrNull, declaredTier, Option.filter_some]
      by_cases hrange : 240 ≤ n ∧ n ≤ 4320 <;> simp [TierRange, hrange]

/-- The extractor on this JSON is the one of the upserts. -/
theorem extractResolution_fields (file : FilePayload) :
    extractResolution num file.fields = .ok (extractVideoResolution file) := by
  show (match declaredTier (some (intOrNull file.quality.resolution : PyValue F)) with
    | some declared => Except.ok (some declared)
    | none =>
        match searchTier pythonClasses
            (textOrEmpty num (some (textOrNull file.quality.name))).toList with
        | some named => Except.ok (some named)
        | none => Except.ok (frameTier pythonClasses
            (textOrEmpty num (some (textOrNull file.mediaInfo.resolution))).toList)) = _
  rw [declaredTier_intOrNull, textOrEmpty_textOrNull, textOrEmpty_textOrNull,
    extractVideoResolution]
  split
  · rename_i declared hdeclared
    rw [hdeclared]
    rfl
  · rename_i hdeclared
    rw [hdeclared]
    split
    · rename_i named hnamed
      rw [hnamed]
      rfl
    · rename_i hnamed
      rw [hnamed]
      rfl

/-- **Texts that both classifications read alike are re-derived as they are
extracted**, with a tier that is a number if it is given. -/
theorem rederive_fields (file : FilePayload)
    (hname : pythonClasses.AlikeOn pg.classes (file.quality.name.getD "").toList)
    (hframe : pythonClasses.AlikeOn pg.classes (file.mediaInfo.resolution.getD "").toList) :
    extractResolution num file.fields = .ok (extractVideoResolution file) ∧
      ∀ previous, rederive pg file.fields previous =
        .ok ((extractVideoResolution file).or previous) := by
  have htext : ∀ value : Option String,
      (pg.text (some (textOrNull value))).getD "" = value.getD "" := by
    intro value
    cases value <;> rfl
  have hsources : resolutionSources (F := F) file.fields =
      ⟨some (intOrNull file.quality.resolution), some (textOrNull file.quality.name),
        some (textOrNull file.mediaInfo.resolution)⟩ := rfl
  have hextracted : extractResolution num file.fields = .ok (extractVideoResolution file) :=
    extractResolution_fields file
  have htexts : ∀ value : Option String,
      pythonClasses.AlikeOn pg.classes (value.getD "").toList →
        SameText num pg (some (textOrNull value)) := by
    intro value halike
    constructor
    · rw [htext, textOrEmpty_textOrNull]
    · rwa [textOrEmpty_textOrNull]
  have halike : ReadAlike num pg (resolutionSources (F := F) file.fields) := by
    rw [hsources]
    refine Or.inr ⟨fun hspelled => ?_, htexts _ hname, htexts _ hframe⟩
    cases htier : file.quality.resolution with
    | none =>
        rw [htier] at hspelled
        cases hspelled
    | some n => exact ⟨n, rfl⟩
  exact ⟨hextracted, (rederives_iff_firstAlike hextracted).mpr halike.firstAlike⟩

end Results

/-! ## A tier in quotes -/

/-- A digit is below ten. -/
theorem asciiDigit_lt {c : Char} {d : ℕ} (h : asciiDigit c = some d) : d < 10 := by
  unfold asciiDigit at h
  split at h
  · rename_i hdigit
    obtain rfl := Option.some.inj h
    have hhigh := (Char.isDigit_iff_toNat.mp hdigit).2
    simp only [Char.reduceToNat] at hhigh ⊢
    omega
  · cases h

/-- `[[:space:]]` of the C locale. -/
def isCSpace (c : Char) : Bool := c = ' ' || (9 ≤ c.toNat && c.toNat ≤ 13)

/-- A digit is no white space. -/
theorem isCSpace_of_isSome_asciiDigit {c : Char} (h : (asciiDigit c).isSome = true) :
    isCSpace c = false := by
  unfold asciiDigit at h
  split at h
  · rename_i hdigit
    have hlow := (Char.isDigit_iff_toNat.mp hdigit).1
    simp only [Char.reduceToNat] at hlow
    rw [isCSpace, Bool.or_eq_false_iff]
    refine ⟨decide_eq_false fun hblank => ?_, ?_⟩
    · rw [hblank] at hlow
      simp at hlow
    · rw [Bool.and_eq_false_iff]
      exact Or.inr (decide_eq_false (by omega))
  · cases h

/-- The letters of a resolution are neither digits nor white space. -/
theorem asciiDigit_letters :
    ∀ c ∈ ['i', 'p', 'x'], (asciiDigit c).isSome = false ∧ isCSpace c = false := by
  rw [List.forall_mem_cons, List.forall_mem_cons, List.forall_mem_singleton]
  decide +kernel

/-- A database of the C locale. -/
def cTexts : PgTexts Int where
  realText x := toString x ++ ".0"
  containerText _ := "[]"
  classes :=
    { digit := asciiDigit
      space := isCSpace
      digit_lt := fun _ _ => asciiDigit_lt
      space_of_isSome_digit := fun _ => isCSpace_of_isSome_asciiDigit
      letters := asciiDigit_letters }
  digit_eq := rfl

/-- A file whose payload has its tier as a text. -/
def quotedTier : PyFields Int :=
  [("quality", .obj [("quality", .obj [("name", .str "WEBDL-1080p"), ("resolution", .str "720")])])]

/-- Python passes the quoted tier over and reads the name. -/
theorem extractResolution_quotedTier :
    extractResolution wholeNumbers quotedTier = .ok (some 1080) := rfl

/-- The extractor reads the name, and the update the tier. -/
theorem not_rederives_quotedTier :
    ¬ ∀ r, extractResolution wholeNumbers quotedTier = .ok r →
      Rederives cTexts quotedTier r := by
  intro h
  have hsame := h (some 1080) extractResolution_quotedTier none
  have hupdate : rederive cTexts quotedTier none = .ok (some 720) := rfl
  rw [hupdate] at hsame
  cases hsame

/-- A file without a tier, whose frame has one. -/
def frameOnly : PyFields Int :=
  [("quality", .obj [("quality", .obj [("name", .str "WEBDL"), ("resolution", .int 0)])]),
    ("mediaInfo", .obj [("resolution", .str "1920x1080")])]

/-- Where there is nothing else, the frame decides. -/
theorem extractResolution_frameOnly :
    extractResolution wholeNumbers frameOnly = .ok (some 1080) := rfl

/-- Both classify the characters of the name alike, and those of the frame. -/
theorem alikeOn_frameOnly :
    (∀ c ∈ ['W', 'E', 'B', 'D', 'L'],
      pythonClasses.digit c = cTexts.classes.digit c ∧
        pythonClasses.space c = cTexts.classes.space c) ∧
    ∀ c ∈ ['1', '9', '2', '0', 'x', '1', '0', '8', '0'],
      pythonClasses.digit c = cTexts.classes.digit c ∧
        pythonClasses.space c = cTexts.classes.space c := by
  simp only [List.forall_mem_cons]
  refine ⟨⟨?_, ?_, ?_, ?_, ?_, List.forall_mem_nil _⟩,
    ?_, ?_, ?_, ?_, ?_, ?_, ?_, ?_, ?_, List.forall_mem_nil _⟩ <;> decide +kernel

/-- The two read that frame alike. -/
theorem readAlike_frameOnly : ReadAlike wholeNumbers cTexts (resolutionSources frameOnly) :=
  Or.inr ⟨fun _ => ⟨0, rfl⟩, ⟨rfl, alikeOn_frameOnly.1⟩, ⟨rfl, alikeOn_frameOnly.2⟩⟩

/-- The quoted tier is not the name's; and the frame is read alike. -/
theorem rederive_agrees_iff_frameOnly :
    (Rederives cTexts quotedTier (some 1080) ↔ (some 1080 : Option Int) = some 720) ∧
      Rederives cTexts frameOnly (some 1080) :=
  ⟨(rederive_agrees_iff extractResolution_quotedTier).2.2 720 rfl,
    (rederive_agrees_iff extractResolution_frameOnly).2.1 readAlike_frameOnly⟩

end Nebularr
