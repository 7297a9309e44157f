import Nebularr.Calendar
import Nebularr.Words

/-!
# What a schedule says it does

`describeCron`, the phrase for a crontab in the automation editor, beside the
trigger that the scheduler builds from the same text: which phrases say when it
fires.

The two split the text at different white space, number the weekdays from
different days, and a step such as `*/7` starts again with every hour, day or
month, where the phrase has an interval.
-/

namespace Nebularr

/-! ## The phrase -/

/-- `\s`, and what `trim` takes away. -/
def isJsSpace (c : Char) : Bool :=
  let n := c.toNat
  (9 ≤ n && n ≤ 13) || n == 32 || n == 0xa0 || n == 0x1680 || (0x2000 ≤ n && n ≤ 0x200a) ||
    n == 0x2028 ||
    n == 0x2029 || n == 0x202f || n == 0x205f || n == 0x3000 || n == 0xfeff

/-- The number that digits spell. -/
def decimal (digits : List Char) : ℕ := Nat.ofDigitChars 10 digits 0

/-- `/^\d+$/`. -/
def isNumber (field : List Char) : Bool := !field.isEmpty && field.all Char.isDigit

/-- `/^\d{1,2}$/`. -/
def isShortNumber (field : List Char) : Bool := isNumber field && decide (field.length ≤ 2)

/-- `/^\*\/(\d+)$/`, with its number. -/
def stepOf : List Char → Option ℕ
  | '*' :: '/' :: digits => if isNumber digits then some (decimal digits) else none
  | _ => none

/-- The hour and the minute. -/
def clockTime (minute hour : List Char) : Option (ℕ × ℕ) :=
  if isShortNumber minute && isShortNumber hour then
    if decimal minute > 59 ∨ decimal hour > 23 then none else some (decimal hour, decimal minute)
  else none

/-- Where a name stands in a list, in whatever case it is written. -/
def nameIndex (names : List String) (field : List Char) : Option ℕ :=
  names.findIdx? fun name => name.toList == field.map Char.toLower

/-- `DAY_ALIASES`, which start with Sunday. -/
def dayAliases : List String := ["sun", "mon", "tue", "wed", "thu", "fri", "sat"]

def dayNames : List String :=
  ["Sunday", "Monday", "Tuesday", "Wednesday", "Thursday", "Friday", "Saturday"]

/-- `dayName`, as the place in `DAY_NAMES`. -/
def dayName (field : List Char) : Option ℕ :=
  if isNumber field && decide (field.length = 1) then some (decimal field % 7)
    else nameIndex dayAliases field

/-- What `describeCron` returns: the text as it is, or a phrase. -/
inductive Phrase
  | raw (text : String)
  | everyDay (hour minute : ℕ)
  | everyMinutes (n : ℕ)
  | everyHours (n : ℕ)
  | everyDays (n hour minute : ℕ)
  | monthly (day hour minute : ℕ)
  | weekly (days : List ℕ) (hour minute : ℕ)
deriving DecidableEq, Repr

/-- The part of `describeCron` after the split. -/
def describeFields (minute hour dom month dow : List Char) : Option Phrase :=
  let clock := clockTime minute hour
  if month = ['*'] ∧ dom = ['*'] ∧ dow = ['*'] then
    match clock with
    | some (h, m) => some (.everyDay h m)
    | none =>
        match stepOf minute, decide (hour = ['*']) with
        | some n, true => some (.everyMinutes n)
        | _, _ => if isShortNumber minute then (stepOf hour).map .everyHours else none
  else
    let days := if month = ['*'] ∧ dow = ['*'] then
        clock.bind fun (h, m) =>
          match stepOf dom with
          | some n => some (.everyDays n h m)
          | none => if isShortNumber dom then some (.monthly (decimal dom) h m) else none
      else none
    let weekdays := if month = ['*'] ∧ dom = ['*'] then
        clock.bind fun (h, m) => ((dow.splitOn ',').mapM dayName).map fun days => .weekly days h m
      else none
    days.or weekdays

def describeCron (cron : String) : Phrase :=
  let raw := stripBy isJsSpace cron.toList
  -- `"".split(/\s+/)` is one empty part
  match if raw = [] then [[]] else words isJsSpace raw with
  | [minute, hour, dom, month, dow] =>
      (describeFields minute hour dom month dow).getD (.raw (String.ofList raw))
  | _ => .raw (String.ofList raw)

def pad (n : ℕ) : String := if n < 10 then "0" ++ toString n else toString n

def ordinal (n : ℕ) : String :=
  if 11 ≤ n % 100 ∧ n % 100 ≤ 13 then toString n ++ "th"
  else toString n ++
    match n % 10 with
    | 1 => "st"
    | 2 => "nd"
    | 3 => "rd"
    | _ => "th"

/-- "a, b and c". -/
def joinList (items : List String) : String :=
  match items with
  | [] => ""
  | [item] => item
  | items => ", ".intercalate items.dropLast ++ " and " ++ items.getLastD ""

/-- The text of a phrase, `numberText` being how JavaScript writes a number that
digits spell. -/
def Phrase.text (numberText : ℕ → String) : Phrase → String
  | .raw text => text
  | .everyDay h m => "every day at " ++ pad h ++ ":" ++ pad m
  | .everyMinutes n => if n = 1 then "every minute" else "every " ++ numberText n ++ " minutes"
  | .everyHours n => if n = 1 then "every hour" else "every " ++ numberText n ++ " hours"
  | .everyDays n h m =>
      (if n = 1 then "every day at " else "every " ++ numberText n ++ " days at ") ++ pad h ++
        ":" ++ pad m
  | .monthly day h m => "monthly on the " ++ ordinal day ++ " at " ++ pad h ++ ":" ++ pad m
  | .weekly days h m =>
      "every " ++ joinList (days.map fun d => dayNames.getD d "") ++ " at " ++ pad h ++ ":" ++ pad m

example : (describeCron "15 6 * * 1,5").text toString = "every Monday and Friday at 06:15" := by
  decide +kernel

/-! ## What a phrase says -/

/-- A phrase says when something happens.  Weekdays are counted from Sunday in a
phrase, from Monday on the calendar. -/
def Phrase.Says (happens : ℕ → Prop) : Phrase → Prop
  | .raw _ => True
  | .everyDay h m => ∀ t, happens t ↔ hourOf t = h ∧ minuteOf t = m
  | .everyMinutes n => Every n happens
  | .everyHours n => Every (60 * n) happens
  | .everyDays n h m =>
      Every (dayMinutes * n) happens ∧ ∀ t, happens t → hourOf t = h ∧ minuteOf t = m
  | .monthly day h m => ∀ t, happens t ↔ (dateOf t).day = day ∧ hourOf t = h ∧ minuteOf t = m
  | .weekly days h m =>
      ∀ t, happens t ↔ (weekdayOf t + 1) % 7 ∈ days ∧ hourOf t = h ∧ minuteOf t = m

/-! ## The scheduler -/

inductive CronField
  | minute | hour | day | month | dayOfWeek
deriving DecidableEq, Repr

namespace CronField

/-- The fields of a crontab, in order. -/
def all : List CronField := [.minute, .hour, .day, .month, .dayOfWeek]

/-- What a field is at a time. -/
def valueAt : CronField → ℕ → ℕ
  | .minute, t => minuteOf t
  | .hour, t => hourOf t
  | .day, t => (dateOf t).day
  | .month, t => (dateOf t).month
  | .dayOfWeek, t => weekdayOf t

def least : CronField → ℕ
  | .day => 1
  | .month => 1
  | _ => 0

def greatest : CronField → ℕ
  | .minute => 59
  | .hour => 23
  | .day => 31
  | .month => 12
  | .dayOfWeek => 6

end CronField

/-- The scheduler's names of weekdays. -/
def weekdays : List String := ["mon", "tue", "wed", "thu", "fri", "sat", "sun"]

/-- The byte order mark: white space in JavaScript, not in Python. -/
def bom : Char := '\ufeff'

/-- `CronTrigger.from_crontab`, as documented: five fields, each a list of
expressions of which one is to match. -/
structure CronTriggers where
  accepts : String → Bool
  fires : String → ℕ → Bool
  acceptsItem : CronField → List Char → Bool
  matchesItem : CronField → List Char → ℕ → Bool
  reads : ∀ cron, accepts cron = true →
    (words isPySpace cron.toList).length = 5 ∧
    (∀ part ∈ CronField.all.zip (words isPySpace cron.toList), ∀ item ∈ part.2.splitOn ',',
      acceptsItem part.1 item = true) ∧
    ∀ t, fires cron t = true ↔ ∀ part ∈ CronField.all.zip (words isPySpace cron.toList),
      ∃ item ∈ part.2.splitOn ',', matchesItem part.1 item (part.1.valueAt t) = true
  star : ∀ field value, matchesItem field ['*'] value = true
  /-- A number is in the field's range and matches itself; Monday is 0. -/
  number : ∀ field item, acceptsItem field item = true → isNumber item = true →
    (field.least ≤ decimal item ∧ decimal item ≤ field.greatest) ∧
    ∀ value, matchesItem field item value = true ↔ value = decimal item
  /-- A step starts at the least value of its field. -/
  step : ∀ field item n, acceptsItem field item = true → stepOf item = some n →
    1 ≤ n ∧ ∀ value, matchesItem field item value = true ↔ (value - field.least) % n = 0
  /-- The expression for a name does not look past the name's letters. -/
  name : ∀ item boms day, nameIndex weekdays item = some day → (∀ c ∈ boms, c = bom) →
    ∀ value, matchesItem .dayOfWeek (item ++ boms) value = true ↔ value = day
  /-- The other expressions are to match to the end. -/
  letter_of_bom : ∀ field item, acceptsItem field item = true → bom ∈ item →
    ∃ c, item.head? = some c ∧ c.isAlpha = true


/-! ## The shapes that get a phrase -/

/-- The fields of the phrases, for the month is any. -/
inductive Shape (minute hour dom dow : List Char) : Phrase → Prop
  | everyDay {h m} (hclock : clockTime minute hour = some (h, m)) (hdom : dom = ['*'])
    (hdow : dow = ['*']) :
      Shape minute hour dom dow (.everyDay h m)
  | everyMinutes {n} (hstep : stepOf minute = some n) (hhour : hour = ['*']) (hdom : dom = ['*'])
      (hdow : dow = ['*']) : Shape minute hour dom dow (.everyMinutes n)
  | everyHours {n} (hstep : stepOf hour = some n) (hminute : isShortNumber minute = true)
    (hdom : dom = ['*'])
      (hdow : dow = ['*']) : Shape minute hour dom dow (.everyHours n)
  | everyDays {n h m} (hclock : clockTime minute hour = some (h, m)) (hstep : stepOf dom = some n)
      (hdow : dow = ['*']) : Shape minute hour dom dow (.everyDays n h m)
  | monthly {h m} (hclock : clockTime minute hour = some (h, m)) (hdom : isShortNumber dom = true)
      (hdow : dow = ['*']) : Shape minute hour dom dow (.monthly (decimal dom) h m)
  | weekly {days h m} (hclock : clockTime minute hour = some (h, m)) (hdom : dom = ['*'])
      (hdow : (dow.splitOn ',').mapM dayName = some days) :
        Shape minute hour dom dow (.weekly days h m)

/-- **The phrases of `describeCron`.** -/
theorem shape_of_describeFields {minute hour dom month dow : List Char} {phrase : Phrase}
    (h : describeFields minute hour dom month dow = some phrase) :
    month = ['*'] ∧ Shape minute hour dom dow phrase := by
  unfold describeFields at h
  dsimp only at h
  split at h
  · rename_i hstars
    obtain ⟨hmonth, hdom, hdow⟩ := hstars
    refine ⟨hmonth, ?_⟩
    split at h
    · rename_i hclock
      obtain rfl := Option.some.inj h
      exact .everyDay hclock hdom hdow
    · split at h
      · rename_i hstep hhour
        obtain rfl := Option.some.inj h
        exact .everyMinutes hstep (of_decide_eq_true hhour) hdom hdow
      · split at h
        · rename_i hminute
          obtain ⟨n, hstep, rfl⟩ := Option.map_eq_some_iff.mp h
          exact .everyHours hstep hminute hdom hdow
        · cases h
  · rw [Option.or_eq_some_iff] at h
    obtain hdays | ⟨-, hweekdays⟩ := h
    · split at hdays
      · rename_i hstars
        refine ⟨hstars.1, ?_⟩
        obtain ⟨⟨h, m⟩, hclock, hphrase⟩ := Option.bind_eq_some_iff.mp hdays
        simp only at hphrase
        split at hphrase
        · rename_i hstep
          obtain rfl := Option.some.inj hphrase
          exact .everyDays hclock hstep hstars.2
        · split at hphrase
          · rename_i hdom
            obtain rfl := Option.some.inj hphrase
            exact .monthly hclock hdom hstars.2
          · cases hphrase
      · cases hdays
    · split at hweekdays
      · rename_i hstars
        refine ⟨hstars.1, ?_⟩
        obtain ⟨⟨h, m⟩, hclock, hphrase⟩ := Option.bind_eq_some_iff.mp hweekdays
        obtain ⟨days, hdays, rfl⟩ := Option.map_eq_some_iff.mp hphrase
        exact .weekly hclock hstars.2 hdays
      · cases hweekdays

/-- A text that gets a phrase has five fields of such a shape. -/
theorem fields_of_describeCron {cron : String} (h : ∀ text, describeCron cron ≠ .raw text) :
    ∃ minute hour dom dow, words isJsSpace cron.toList = [minute, hour, dom, ['*'], dow] ∧
      Shape minute hour dom dow (describeCron cron) := by
  unfold describeCron at h ⊢
  simp only at h ⊢
  split at h
  · rename_i minute hour dom month dow hparts
    have hwords : words isJsSpace cron.toList = [minute, hour, dom, month, dow] := by
      split at hparts
      · cases hparts
      · rw [← hparts, words_stripBy]
    cases hfields : describeFields minute hour dom month dow with
    | none => exact absurd (by rw [hfields]; rfl) (h _)
    | some phrase =>
        obtain ⟨rfl, hshape⟩ := shape_of_describeFields hfields
        exact ⟨minute, hour, dom, dow, hwords, by simpa [hparts, hfields] using hshape⟩
  · exact absurd rfl (h _)

/-! ## The characters of the fields -/

/-- White space to neither of the two. -/
def Visible (c : Char) : Prop := 32 < c.toNat ∧ c.toNat < 128

/-- A digit is no white space. -/
theorem visible_of_isDigit {c : Char} (h : c.isDigit = true) : Visible c := by
  rw [Char.isDigit, Bool.and_eq_true, decide_eq_true_eq, decide_eq_true_eq] at h
  have hlow : 48 ≤ c.toNat := h.1
  have hhigh : c.toNat ≤ 57 := h.2
  exact ⟨by omega, by omega⟩

/-- Nor is any character of a number. -/
theorem visible_of_isNumber {field : List Char} (h : isNumber field = true) :
    ∀ c ∈ field, Visible c := by
  intro c hc
  rw [isNumber, Bool.and_eq_true, List.all_eq_true] at h
  exact visible_of_isDigit (h.2 c hc)

/-- A short number is a number. -/
theorem isNumber_of_isShortNumber {field : List Char} (h : isShortNumber field = true) :
    isNumber field = true := by
  rw [isShortNumber, Bool.and_eq_true] at h
  exact h.1

/-- A step is an asterisk, a slash and a number. -/
theorem stepOf_eq_some {field : List Char} {n : ℕ} (h : stepOf field = some n) :
    ∃ digits, field = '*' :: '/' :: digits ∧ isNumber digits = true := by
  unfold stepOf at h
  split at h
  · rename_i digits
    split at h
    · exact ⟨digits, rfl, by assumption⟩
    · cases h
  · cases h

/-- A clock time is two numbers within the day. -/
theorem clockTime_eq_some {minute hour : List Char} {h m : ℕ}
    (hclock : clockTime minute hour = some (h, m)) :
    isNumber minute = true ∧ isNumber hour = true ∧ decimal hour = h ∧ decimal minute = m ∧
      h ≤ 23 ∧ m ≤ 59 := by
  unfold clockTime at hclock
  split at hclock
  · rename_i hshort
    rw [Bool.and_eq_true] at hshort
    split at hclock
    · cases hclock
    · rename_i hrange
      simp only [Option.some.injEq, Prod.mk.injEq] at hclock
      obtain ⟨rfl, rfl⟩ := hclock
      exact ⟨isNumber_of_isShortNumber hshort.1, isNumber_of_isShortNumber hshort.2, rfl,
        rfl, by omega, by omega⟩
  · cases hclock

/-- The letters by their code points. -/
theorem isAlpha_iff {c : Char} :
    c.isAlpha = true ↔ (65 ≤ c.toNat ∧ c.toNat ≤ 90) ∨ 97 ≤ c.toNat ∧ c.toNat ≤ 122 := by
  have hletters : c.isAlpha =
      (decide (c.val ≥ 'A'.val ∧ c.val ≤ 'Z'.val) ||
        (decide (c.val ≥ 'a'.val) && decide (c.val ≤ 'z'.val))) := rfl
  rw [hletters, Bool.or_eq_true, Bool.and_eq_true, decide_eq_true_eq, decide_eq_true_eq,
    decide_eq_true_eq]
  rfl

/-- A field without a comma and not for a name. -/
structure Stiff (field : List Char) : Prop where
  visible : ∀ c ∈ field, Visible c
  comma : ',' ∉ field
  letter : ∀ c, field.head? = some c → c.isAlpha = false

/-- A star is stiff. -/
theorem stiff_star : Stiff ['*'] where
  visible := List.forall_mem_singleton.mpr ⟨by decide, by decide⟩
  comma := by decide
  letter c h := by
    obtain rfl := Option.some.inj h
    rfl

/-- A number is stiff. -/
theorem stiff_of_isNumber {field : List Char} (h : isNumber field = true) : Stiff field := by
  have hvisible := visible_of_isNumber h
  rw [isNumber, Bool.and_eq_true, List.all_eq_true] at h
  refine ⟨hvisible, fun hcomma => absurd (h.2 _ hcomma) (by decide), fun c hc => ?_⟩
  have hdigit := h.2 c (List.mem_of_mem_head? hc)
  rw [Char.isDigit, Bool.and_eq_true, decide_eq_true_eq, decide_eq_true_eq] at hdigit
  have hhigh : c.toNat ≤ 57 := hdigit.2
  rw [Bool.eq_false_iff, Ne, isAlpha_iff]
  omega

/-- A step is stiff. -/
theorem stiff_of_stepOf {field : List Char} {n : ℕ} (h : stepOf field = some n) : Stiff field := by
  obtain ⟨digits, rfl, hdigits⟩ := stepOf_eq_some h
  obtain ⟨hvisible, hcomma, -⟩ := stiff_of_isNumber hdigits
  have hslash : Visible '/' := ⟨by decide, by decide⟩
  refine ⟨?_, by simp [hcomma], fun c hc => ?_⟩
  · rw [List.forall_mem_cons, List.forall_mem_cons]
    exact ⟨⟨by decide, by decide⟩, hslash, hvisible⟩
  · obtain rfl := Option.some.inj hc
    rfl

/-- Only a letter has a letter for its lower case. -/
theorem isAlpha_of_toLower {c : Char} (h : c.toLower.isAlpha = true) : c.isAlpha = true := by
  unfold Char.toLower at h
  by_cases hupper : c.val ≥ 'A'.val ∧ c.val ≤ 'Z'.val
  · exact isAlpha_iff.mpr (Or.inl hupper)
  · rwa [dif_neg hupper] at h

/-- A letter is no white space. -/
theorem visible_of_isAlpha {c : Char} (h : c.isAlpha = true) : Visible c := by
  rw [isAlpha_iff] at h
  exact ⟨by omega, by omega⟩

/-- Each name of the one table stands in the other, a day further on. -/
theorem weekdays_table :
    ((List.range 7).all fun w =>
      let word := (weekdays.getD w "").toList
      (dayAliases.findIdx? fun name => name.toList == word) == some ((w + 1) % 7) &&
        (!word.isEmpty && word.all Char.isAlpha)) = true := by decide

/-- The two tables have the same names. -/
theorem mem_weekdays_of_mem_dayAliases :
    (dayAliases.all fun name => weekdays.contains name) = true := by decide

/-- The names are those of weekdays, counted from another day. -/
theorem nameIndex_cases (item : List Char) :
    (∃ w, w < 7 ∧ nameIndex weekdays item = some w ∧
      nameIndex dayAliases item = some ((w + 1) % 7) ∧
        item ≠ [] ∧ ∀ c ∈ item, c.isAlpha = true) ∨
      nameIndex weekdays item = none ∧ nameIndex dayAliases item = none := by
  cases hindex : nameIndex weekdays item with
  | some w =>
      left
      obtain ⟨hw, hword, -⟩ := List.findIdx?_eq_some_iff_getElem.mp hindex
      have htable := List.all_eq_true.mp weekdays_table w (List.mem_range.mpr hw)
      rw [List.getD_eq_getElem?_getD, List.getElem?_eq_getElem hw, Option.getD_some,
        eq_of_beq hword,
        Bool.and_eq_true, Bool.and_eq_true, List.all_eq_true] at htable
      obtain ⟨hindices, hnonempty, hletters⟩ := htable
      refine ⟨w, hw, rfl, eq_of_beq hindices, ?_, fun c hc => ?_⟩
      · rintro rfl
        cases hnonempty
      · exact isAlpha_of_toLower (hletters _ (List.mem_map_of_mem hc))
  | none =>
      right
      refine ⟨rfl, List.findIdx?_eq_none_iff.mpr fun name hname => ?_⟩
      have hmem := List.all_eq_true.mp mem_weekdays_of_mem_dayAliases name hname
      exact List.findIdx?_eq_none_iff.mp hindex name (List.contains_iff_mem.mp hmem)

/-- A weekday is written without white space. -/
theorem visible_of_dayName {item : List Char} {d : ℕ} (h : dayName item = some d) :
    ∀ c ∈ item, Visible c := by
  unfold dayName at h
  split at h
  · rename_i hdigit
    rw [Bool.and_eq_true] at hdigit
    exact visible_of_isNumber hdigit.1
  · obtain ⟨w, -, -, -, -, hletters⟩ | ⟨-, hnone⟩ := nameIndex_cases item
    · exact fun c hc => visible_of_isAlpha (hletters c hc)
    · rw [hnone] at h
      cases h

/-- So is a list of weekdays. -/
theorem visible_of_dow {dow : List Char} {days : List ℕ}
    (h : (dow.splitOn ',').mapM dayName = some days) :
    ∀ c ∈ dow, Visible c := by
  intro c hc
  by_cases hcomma : c = ','
  · subst hcomma
    exact ⟨by decide, by decide⟩
  · obtain ⟨item, hword, hmem⟩ := exists_word_of_mem (p := (· == ',')) hc (beq_false_of_ne hcomma)
    have hitem : item ∈ dow.splitOn ',' := by
      rw [List.splitOn_eq_splitOnP]
      exact (List.mem_filter.mp hword).1
    obtain ⟨d, -, hd⟩ := List.mem_map.mp (map_of_mapM h ▸ List.mem_map_of_mem hitem)
    exact visible_of_dayName hd.symm c hmem

/-- Only the last field may be a list of days. -/
theorem Shape.fields {minute hour dom dow : List Char} {phrase : Phrase}
    (h : Shape minute hour dom dow phrase) :
    Stiff minute ∧ Stiff hour ∧ Stiff dom ∧ ∀ c ∈ dow, Visible c := by
  have hclock : ∀ {h m}, clockTime minute hour = some (h, m) → Stiff minute ∧ Stiff hour := by
    intro h m hclock
    obtain ⟨hminute, hhour, _⟩ := clockTime_eq_some hclock
    exact ⟨stiff_of_isNumber hminute, stiff_of_isNumber hhour⟩
  have hstar := stiff_star
  have hvisible := hstar.visible
  cases h with
  | everyDay hat hdom hdow =>
      subst hdom hdow
      exact ⟨(hclock hat).1, (hclock hat).2, hstar, hvisible⟩
  | everyMinutes hstep hhour hdom hdow =>
      subst hhour hdom hdow
      exact ⟨stiff_of_stepOf hstep, hstar, hstar, hvisible⟩
  | everyHours hstep hminute hdom hdow =>
      subst hdom hdow
      exact ⟨stiff_of_isNumber (isNumber_of_isShortNumber hminute), stiff_of_stepOf hstep, hstar,
        hvisible⟩
  | everyDays hat hstep hdow =>
      subst hdow
      exact ⟨(hclock hat).1, (hclock hat).2, stiff_of_stepOf hstep, hvisible⟩
  | monthly hat hdom hdow =>
      subst hdow
      exact ⟨(hclock hat).1, (hclock hat).2, stiff_of_isNumber (isNumber_of_isShortNumber hdom),
        hvisible⟩
  | weekly hat hdom hdow =>
      subst hdom
      exact ⟨(hclock hat).1, (hclock hat).2, hstar, visible_of_dow hdow⟩

/-! ## The two ways of splitting -/

/-- A visible character separates fields neither here nor there. -/
theorem isJsSpace_of_visible {c : Char} (h : Visible c) : isPySpace c = false ∧ c ≠ bom := by
  obtain ⟨hlow, hhigh⟩ := h
  constructor
  · rw [isPySpace, isSpaceCode]
    simp only [Bool.or_eq_false_iff, Bool.and_eq_false_iff, decide_eq_false_iff_not]
    omega
  · rintro rfl
    exact absurd hhigh (by decide)

/-- The browser separates where Python does, and at byte order marks. -/
theorem isPySpace_of_isJsSpace {c : Char} (h : isJsSpace c = true) :
    isPySpace c = true ∨ c = bom := by
  unfold isJsSpace at h
  rw [isPySpace, isSpaceCode, ← Char.toNat_inj]
  have hbom : bom.toNat = 0xfeff := by decide
  rw [hbom]
  simp only [Bool.or_eq_true, Bool.and_eq_true, decide_eq_true_eq, beq_iff_eq] at h ⊢
  omega

/-- A field without a mark is one word. -/
theorem words_bom_eq_singleton {field : List Char} (hbom : bom ∉ field) (hne : field ≠ []) :
    words (· == bom) field = [field] := by
  apply words_eq_singleton _ hne
  intro c hc
  rw [beq_eq_false_iff_ne]
  rintro rfl
  exact hbom hc

/-- A mark ends the word before it. -/
theorem words_bom_cons {before : List Char} (after : List Char) (hbefore : bom ∉ before)
    (hne : before ≠ []) :
    words (· == bom) (before ++ bom :: after) = before :: words (· == bom) after := by
  rw [words_append_cons (p := (· == bom)) before after (beq_self_eq_true bom),
    words_bom_eq_singleton hbefore hne]
  rfl

/-- The first item of a field that starts with a part without commas. -/
theorem exists_first_item {before : List Char} (after : List Char) (h : ',' ∉ before) :
    ∃ more, before ++ more ∈ (before ++ after).splitOn ',' ∧ ∀ c, after.head? = some c → c ≠ ',' →
      more.head? = some c := by
  by_cases hafter : ',' ∈ after
  · obtain ⟨more, rest, rfl, hmore⟩ := List.eq_append_cons_of_mem hafter
    refine ⟨more, ?_, fun c hc hne => ?_⟩
    · rw [← List.append_assoc, List.splitOn_append_cons_self_of_not_mem (by simp [h, hmore])]
      exact List.mem_cons_self
    · cases more with
      | nil => exact absurd (Option.some.inj hc).symm hne
      | cons d more =>
          exact hc
  · refine ⟨after, ?_, fun c hc _ => hc⟩
    rw [List.splitOn_eq_singleton (by simp [h, hafter])]
    exact List.mem_singleton_self _

/-- What the scheduler accepts has no mark in a field that the phrase takes for
one without. -/
theorem words_bom_of_stiff {field first : List Char} {rest tail : List (List Char)}
    (hitems : ∀ item ∈ field.splitOn ',', bom ∈ item → ∃ c, item.head? = some c ∧ c.isAlpha = true)
    (hne : field ≠ []) (hfirst : Stiff first) (h : words (· == bom) field ++ tail = first :: rest) :
    field = first ∧ tail = rest := by
  by_cases hbom : bom ∈ field
  · obtain ⟨before, after, rfl, hbefore⟩ := List.eq_append_cons_of_mem hbom
    exfalso
    have hstart : before ≠ [] → before = first := by
      intro hnil
      rw [words_bom_cons after hbefore hnil, List.cons_append] at h
      exact (List.cons.inj h).1
    have hcomma : ',' ∉ before := by
      intro hmem
      exact hfirst.comma (hstart (List.ne_nil_of_mem hmem) ▸ hmem)
    obtain ⟨more, hitem, hmore⟩ := exists_first_item (bom :: after) hcomma
    have hmark : more.head? = some bom := hmore bom rfl (by decide)
    obtain ⟨c, hhead, halpha⟩ :=
      hitems _ hitem (List.mem_append_right _ (List.mem_of_mem_head? hmark))
    by_cases hnil : before = []
    · rw [hnil, List.nil_append, hmark] at hhead
      obtain rfl := Option.some.inj hhead
      exact absurd halpha (by decide)
    · rw [List.head?_append_of_ne_nil _ hnil, hstart hnil] at hhead
      rw [hfirst.letter c hhead] at halpha
      cases halpha
  · rw [words_bom_eq_singleton hbom hne, List.singleton_append] at h
    exact List.cons.inj h


/-- The weekday of an item to the scheduler, Monday being 0. -/
def mondayFirst (item : List Char) : Option ℕ :=
  if isNumber item && decide (item.length = 1) then some (decimal item) else nameIndex weekdays item

/-- The weekdays numbered from Sunday are those numbered from Monday. -/
def WeekdaysAgree (dow : List Char) : Prop :=
  ∀ w, w < 7 → ((∃ item ∈ dow.splitOn ',', dayName item = some ((w + 1) % 7)) ↔
    ∃ item ∈ dow.splitOn ',', mondayFirst item = some w)

/-- A text that is nothing but marks to the phrase. -/
theorem all_bom_of_words {l : List Char} (h : words (· == bom) l = []) : ∀ c ∈ l, c = bom := by
  intro c hc
  by_contra hne
  obtain ⟨word, hword, _⟩ := exists_word_of_mem (p := (· == bom)) hc (beq_false_of_ne hne)
  rw [h] at hword
  cases hword

/-- The last field may end in marks. -/
theorem eq_append_of_words_bom {field word : List Char} (hne : field ≠ [])
    (h : words (· == bom) field = [word]) (hstart : field.head? ≠ some bom) :
    ∃ boms, field = word ++ boms ∧ ∀ c ∈ boms, c = bom := by
  by_cases hbom : bom ∈ field
  · obtain ⟨before, after, rfl, hbefore⟩ := List.eq_append_cons_of_mem hbom
    have hnil : before ≠ [] := by
      rintro rfl
      exact hstart rfl
    rw [words_bom_cons after hbefore hnil] at h
    obtain ⟨rfl, hafter⟩ := List.cons.inj h
    exact ⟨bom :: after, rfl, List.forall_mem_cons.mpr ⟨rfl, all_bom_of_words hafter⟩⟩
  · rw [words_bom_eq_singleton hbom hne] at h
    exact ⟨[], by rw [List.append_nil]; exact (List.cons.inj h).1, fun _ hc => (nomatch hc)⟩

/-- The scheduler's words are those of the phrase, cut at fewer places. -/
theorem flatMap_words {text : List Char}
    {fields : List (List Char)} (h : words isJsSpace text = fields)
    (hvisible : ∀ field ∈ fields, ∀ c ∈ field, Visible c) :
    (words isPySpace text).flatMap (words (· == bom)) = fields := by
  rw [← words_or, ← h]
  apply words_congr
  intro c hc
  cases hspace : isJsSpace c with
  | true =>
      rw [Bool.or_eq_true, beq_iff_eq]
      exact isPySpace_of_isJsSpace hspace
  | false =>
      obtain ⟨field, hfield, hmem⟩ := exists_word_of_mem hc hspace
      obtain ⟨hnot, hne⟩ := isJsSpace_of_visible (hvisible field (h ▸ hfield) c hmem)
      rw [hnot, beq_false_of_ne hne]
      rfl

namespace CronTriggers

variable {triggers : CronTriggers} {cron : String}

/-- How the scheduler reads a text that it accepts and that gets a phrase. -/
structure Reads (triggers : CronTriggers) (cron : String) (minute hour dom dow boms : List Char) :
    Prop where
  marks : ∀ c ∈ boms, c = bom
  acceptsMinute : triggers.acceptsItem .minute minute = true
  acceptsHour : triggers.acceptsItem .hour hour = true
  acceptsDay : triggers.acceptsItem .day dom = true
  acceptsWeekdays : ∀ item ∈ (dow ++ boms).splitOn ',', triggers.acceptsItem .dayOfWeek item = true
  fires_iff : ∀ t, triggers.fires cron t = true ↔
    triggers.matchesItem .minute minute (minuteOf t) = true ∧
    triggers.matchesItem .hour hour (hourOf t) = true ∧
      triggers.matchesItem .day dom (dateOf t).day = true ∧
    ∃ item ∈ (dow ++ boms).splitOn ',', triggers.matchesItem .dayOfWeek item (weekdayOf t) = true

/-- **Both read the same fields.** -/
theorem reads_of_accepts (haccepts : triggers.accepts cron = true)
    (hphrase : ∀ text, describeCron cron ≠ .raw text) :
    ∃ minute hour dom dow boms, words isJsSpace cron.toList = [minute, hour, dom, ['*'], dow] ∧
      Shape minute hour dom dow (describeCron cron) ∧
        Reads triggers cron minute hour dom dow boms := by
  obtain ⟨minute, hour, dom, dow, hjs, hshape⟩ := fields_of_describeCron hphrase
  obtain ⟨hminute, hhour, hdom, hdow⟩ := hshape.fields
  have hstar := stiff_star
  obtain ⟨hlength, hitems, hfires⟩ := triggers.reads cron haccepts
  have hvisible : ∀ field ∈ [minute, hour, dom, ['*'], dow], ∀ c ∈ field, Visible c := by
    intro field hfield
    simp only [List.mem_cons, List.not_mem_nil, or_false] at hfield
    obtain rfl | rfl | rfl | rfl | rfl := hfield
    · exact hminute.visible
    · exact hhour.visible
    · exact hdom.visible
    · exact hstar.visible
    · exact hdow
  have hflat := flatMap_words hjs hvisible
  have hword : ∀ field ∈ words isPySpace cron.toList, field ≠ [] :=
    fun field hfield => (word_of_mem hfield).1
  obtain ⟨f1, rest, hcons⟩ := List.exists_cons_of_length_eq_add_one hlength
  obtain ⟨f2, f3, f4, f5, rfl⟩ := List.length_eq_four.mp (Nat.succ.inj (hcons ▸ hlength))
  rw [hcons] at hitems hfires hflat hword
  simp only [CronField.all, List.zip_cons_cons, List.zip_nil_right, List.forall_mem_cons,
    List.not_mem_nil,
    false_imp_iff, implies_true, and_true] at hitems hfires hword
  obtain ⟨hitems1, hitems2, hitems3, hitems4, hitems5⟩ := hitems
  obtain ⟨hne1, hne2, hne3, hne4, hne5⟩ := hword
  simp only [List.flatMap_cons, List.flatMap_nil, List.append_nil] at hflat
  have hletter : ∀ (field : CronField) (part : List Char),
      (∀ item ∈ part.splitOn ',', triggers.acceptsItem field item = true) →
      ∀ item ∈ part.splitOn ',', bom ∈ item → ∃ c, item.head? = some c ∧ c.isAlpha = true :=
    fun field part haccepted item hitem => triggers.letter_of_bom field item (haccepted item hitem)
  -- field by field: only the last can have marks in it
  obtain ⟨heq1, hflat1⟩ := words_bom_of_stiff (hletter _ _ hitems1) hne1 hminute hflat
  obtain ⟨heq2, hflat2⟩ := words_bom_of_stiff (hletter _ _ hitems2) hne2 hhour hflat1
  obtain ⟨heq3, hflat3⟩ := words_bom_of_stiff (hletter _ _ hitems3) hne3 hdom hflat2
  obtain ⟨heq4, hflat4⟩ := words_bom_of_stiff (hletter _ _ hitems4) hne4 hstar hflat3
  have hstart : f5.head? ≠ some bom := by
    intro hhead
    obtain ⟨more, hitem, hmore⟩ := exists_first_item f5 List.not_mem_nil
    have hmark := hmore bom hhead (by decide)
    obtain ⟨c, hc, halpha⟩ := hletter _ _ hitems5 _ hitem (List.mem_of_mem_head? hmark)
    obtain rfl := Option.some.inj (hmark.symm.trans hc)
    exact absurd halpha (by decide)
  obtain ⟨boms, rfl, hboms⟩ := eq_append_of_words_bom hne5 hflat4 hstart
  subst heq1 heq2 heq3 heq4
  rw [List.splitOn_eq_singleton hminute.comma, List.forall_mem_singleton] at hitems1
  rw [List.splitOn_eq_singleton hhour.comma, List.forall_mem_singleton] at hitems2
  rw [List.splitOn_eq_singleton hdom.comma, List.forall_mem_singleton] at hitems3
  refine ⟨f1, f2, f3, dow, boms, hjs, hshape, hboms, hitems1, hitems2, hitems3, hitems5,
    fun t => ?_⟩
  rw [hfires, List.splitOn_eq_singleton hminute.comma, List.splitOn_eq_singleton hhour.comma,
    List.splitOn_eq_singleton hdom.comma, List.splitOn_eq_singleton hstar.comma]
  simp only [List.mem_singleton, exists_eq_left, triggers.star, true_and]
  rfl

/-- A mark after an item that is not for a name is not accepted. -/
theorem marks_eq_nil {field : CronField} {item boms : List Char} (hboms : ∀ c ∈ boms, c = bom)
    (haccepts : triggers.acceptsItem field (item ++ boms) = true) (hitem : Stiff item)
    (hne : item ≠ []) :
    boms = [] := by
  cases boms with
  | nil => rfl
  | cons c boms =>
      exfalso
      obtain rfl := hboms c List.mem_cons_self
      obtain ⟨d, hhead, halpha⟩ := triggers.letter_of_bom field _ haccepts
        (List.mem_append_right _ List.mem_cons_self)
      rw [List.head?_append_of_ne_nil _ hne] at hhead
      rw [hitem.letter d hhead] at halpha
      cases halpha

/-- A field that is a number fires at it. -/
theorem matches_number {field : CronField} {item : List Char}
    (haccepts : triggers.acceptsItem field item = true)
    (hitem : isNumber item = true) (value : ℕ) :
    triggers.matchesItem field item value = true ↔ value = decimal item :=
  (triggers.number field item haccepts hitem).2 value

/-- An item of a list of days, and what marks may follow it. -/
theorem matches_item {item marks : List Char} {d : ℕ} (hitem : dayName item = some d)
    (hmarks : ∀ c ∈ marks, c = bom)
    (haccepts : triggers.acceptsItem .dayOfWeek (item ++ marks) = true) (w : ℕ) :
    triggers.matchesItem .dayOfWeek (item ++ marks) w = true ↔ mondayFirst item = some w := by
  unfold dayName at hitem
  unfold mondayFirst
  by_cases hdigit : (isNumber item && decide (item.length = 1)) = true
  · rw [if_pos hdigit, Option.some.injEq]
    rw [Bool.and_eq_true, decide_eq_true_eq] at hdigit
    have hne : item ≠ [] := List.ne_nil_of_length_pos (by omega)
    obtain rfl := marks_eq_nil hmarks haccepts (stiff_of_isNumber hdigit.1) hne
    rw [List.append_nil] at haccepts ⊢
    rw [matches_number haccepts hdigit.1, eq_comm]
  · rw [if_neg hdigit] at hitem ⊢
    obtain ⟨v, -, hv, -⟩ | ⟨-, hnone⟩ := nameIndex_cases item
    · rw [triggers.name item marks v hv hmarks, hv, Option.some.injEq, eq_comm]
    · rw [hnone] at hitem
      cases hitem

section Shapes

variable {minute hour dom dow boms : List Char}
  (hreads : Reads triggers cron minute hour dom dow boms)
include hreads

/-- A clock time matches at its hour and minute. -/
theorem Reads.matches_clock {h m : ℕ} (hclock : clockTime minute hour = some (h, m)) (t : ℕ) :
    (triggers.matchesItem .minute minute (minuteOf t) = true ∧
      triggers.matchesItem .hour hour (hourOf t) = true) ↔
      hourOf t = h ∧ minuteOf t = m := by
  obtain ⟨hminute, hhour, rfl, rfl, _⟩ := clockTime_eq_some hclock
  rw [matches_number hreads.acceptsMinute hminute, matches_number hreads.acceptsHour hhour,
    and_comm]

/-- With an asterisk for the weekday. -/
theorem Reads.fires_star (hdow : dow = ['*']) (t : ℕ) :
    triggers.fires cron t = true ↔ triggers.matchesItem .minute minute (minuteOf t) = true ∧
      triggers.matchesItem .hour hour (hourOf t) = true ∧
      triggers.matchesItem .day dom (dateOf t).day = true := by
  subst hdow
  have hstar := stiff_star
  have hsplit : ∀ boms : List Char, (∀ c ∈ boms, c = bom) →
      (['*'] ++ boms).splitOn ',' = [['*'] ++ boms] := by
    intro boms hboms
    apply List.splitOn_eq_singleton
    intro hmem
    obtain hmem | hmem := List.mem_append.mp hmem
    · exact hstar.comma hmem
    · exact absurd (hboms _ hmem) (by decide)
  have hitem :=
    hreads.acceptsWeekdays (['*'] ++ boms)
      (by rw [hsplit boms hreads.marks]; exact List.mem_cons_self)
  obtain rfl := marks_eq_nil hreads.marks hitem hstar (List.cons_ne_nil _ _)
  rw [hreads.fires_iff, hsplit [] hreads.marks, List.append_nil]
  simp only [List.mem_singleton, exists_eq_left, triggers.star, and_true]

/-- A step is at least one and starts at the least value. -/
theorem Reads.step_hour {n : ℕ} (hstep : stepOf hour = some n) :
    1 ≤ n ∧ ∀ t, triggers.matchesItem .hour hour (hourOf t) = true ↔ hourOf t % n = 0 := by
  obtain ⟨hpos, hmatches⟩ := triggers.step .hour hour n hreads.acceptsHour hstep
  exact ⟨hpos, fun t => hmatches (hourOf t)⟩

/-- A step of the minutes matches their multiples. -/
theorem Reads.step_minute {n : ℕ} (hstep : stepOf minute = some n) :
    1 ≤ n ∧ ∀ t, triggers.matchesItem .minute minute (minuteOf t) = true ↔ minuteOf t % n = 0 := by
  obtain ⟨hpos, hmatches⟩ := triggers.step .minute minute n hreads.acceptsMinute hstep
  exact ⟨hpos, fun t => hmatches (minuteOf t)⟩

/-! ### Phrase by phrase -/

/-- The daily phrase is always right. -/
theorem Reads.says_everyDay {h m : ℕ} (hclock : clockTime minute hour = some (h, m))
    (hdom : dom = ['*'])
    (hdow : dow = ['*']) : (Phrase.everyDay h m).Says (triggers.fires cron · = true) := by
  intro t
  change triggers.fires cron t = true ↔ _
  rw [hreads.fires_star hdow, ← and_assoc, hreads.matches_clock hclock, hdom]
  exact and_iff_left (triggers.star _ _)

/-- The monthly phrase is always right. -/
theorem Reads.says_monthly {h m : ℕ} (hclock : clockTime minute hour = some (h, m))
    (hdom : isShortNumber dom = true) (hdow : dow = ['*']) :
    (Phrase.monthly (decimal dom) h m).Says (triggers.fires cron · = true) := by
  intro t
  change triggers.fires cron t = true ↔ _
  rw [hreads.fires_star hdow, ← and_assoc, hreads.matches_clock hclock,
    matches_number hreads.acceptsDay (isNumber_of_isShortNumber hdom), and_comm]

/-- Every so many minutes: as many as divide the hour. -/
theorem Reads.says_everyMinutes_iff {n : ℕ} (hstep : stepOf minute = some n) (hhour : hour = ['*'])
    (hdom : dom = ['*']) (hdow : dow = ['*']) :
    (Phrase.everyMinutes n).Says (triggers.fires cron · = true) ↔ n ∣ 60 := by
  obtain ⟨hpos, hmatches⟩ := hreads.step_minute hstep
  have hfires : ∀ t, triggers.fires cron t = true ↔ t % 60 % n = 0 := by
    intro t
    rw [hreads.fires_star hdow, hmatches, hhour, hdom, triggers.star, triggers.star]
    exact and_iff_left ⟨rfl, rfl⟩
  constructor
  · intro hevery
    have hzero : triggers.fires cron 0 = true := (hfires 0).mpr (Nat.zero_mod n)
    have hhour : triggers.fires cron (0 + 60) = true := (hfires 60).mpr (Nat.zero_mod n)
    exact Every.dvd hevery hzero hhour
  · intro hdvd
    refine every_iff.mpr ⟨0, hpos, fun t => ?_⟩
    rw [hfires, Nat.mod_mod_of_dvd t hdvd]

/-- Every so many hours: as many as divide the day. -/
theorem Reads.says_everyHours_iff {n : ℕ} (hstep : stepOf hour = some n)
    (hminute : isShortNumber minute = true)
    (hdom : dom = ['*']) (hdow : dow = ['*']) :
    (Phrase.everyHours n).Says (triggers.fires cron · = true) ↔ n ∣ 24 := by
  obtain ⟨hpos, hmatches⟩ := hreads.step_hour hstep
  obtain ⟨⟨_, hrange⟩, hnumber⟩ :=
    triggers.number .minute minute hreads.acceptsMinute (isNumber_of_isShortNumber hminute)
  have hlt : decimal minute ≤ 59 := hrange
  have hfires : ∀ t, triggers.fires cron t = true ↔
      t % 60 = decimal minute ∧ t / 60 % 24 % n = 0 := by
    intro t
    rw [hreads.fires_star hdow, hnumber, hmatches, hdom, triggers.star]
    exact and_congr_right' (and_iff_left rfl)
  constructor
  · intro hevery
    have hfirst : triggers.fires cron (decimal minute) = true := by
      rw [hfires, Nat.mod_eq_of_lt (by omega), Nat.div_eq_of_lt (by omega)]
      exact ⟨rfl, Nat.zero_mod n⟩
    have hnextDay : triggers.fires cron (decimal minute + 60 * 24) = true := by
      rw [hfires, Nat.add_mul_mod_self_left, Nat.add_mul_div_left _ _ (by decide),
        Nat.mod_eq_of_lt (by omega),
        Nat.div_eq_of_lt (by omega)]
      exact ⟨rfl, Nat.zero_mod n⟩
    have hdvd : 60 * n ∣ 60 * 24 := Every.dvd hevery hfirst hnextDay
    exact (Nat.mul_dvd_mul_iff_left (by decide)).mp hdvd
  · intro hdvd
    refine every_iff.mpr ⟨decimal minute, by omega, fun t => ?_⟩
    rw [hfires, Nat.mod_mod_of_dvd _ hdvd, Nat.mod_mul]
    have hminute : t % 60 < 60 := Nat.mod_lt t (by decide)
    omega

/-- Every so many days: each day, and no other, for months differ in length. -/
theorem Reads.says_everyDays_iff {n h m : ℕ} (hclock : clockTime minute hour = some (h, m))
    (hstep : stepOf dom = some n) (hdow : dow = ['*']) :
    (Phrase.everyDays n h m).Says (triggers.fires cron · = true) ↔ n = 1 := by
  obtain ⟨hpos, hmatches⟩ := triggers.step .day dom n hreads.acceptsDay hstep
  obtain ⟨_, _, _, _, hh, hm⟩ := clockTime_eq_some hclock
  have hfires : ∀ t, triggers.fires cron t = true ↔
      (hourOf t = h ∧ minuteOf t = m) ∧ ((dateOf t).day - 1) % n = 0 := by
    intro t
    rw [hreads.fires_star hdow, ← and_assoc, hreads.matches_clock hclock, hmatches]
    rfl
  constructor
  · intro ⟨hevery, _⟩
    -- it fires on the first of January, February and March
    have hfirst : ∀ day, (dateOfDay day).day = 1 →
        triggers.fires cron (60 * h + m + dayMinutes * day) = true := by
      intro day hday
      have hdate : (60 * h + m + dayMinutes * day) / dayMinutes = day := by
        unfold dayMinutes
        omega
      rw [hfires, clock_iff (by omega), Nat.add_mul_mod_self_left, dateOf, hdate, hday]
      exact ⟨Nat.mod_eq_of_lt (by unfold dayMinutes; omega), Nat.zero_mod n⟩
    obtain ⟨hfebruary, hmarch⟩ := date_of_firsts
    have hdvd : ∀ day, (dateOfDay day).day = 1 → n ∣ day := by
      intro day hday
      have hminutes : dayMinutes * n ∣ dayMinutes * day :=
        Every.dvd hevery (hfirst 0 rfl) (hfirst day hday)
      exact (Nat.mul_dvd_mul_iff_left (by decide)).mp hminutes
    have hgcd : n ∣ Nat.gcd 31 59 :=
      Nat.dvd_gcd (hdvd 31 (by rw [hfebruary])) (hdvd 59 (by rw [hmarch]))
    exact Nat.dvd_one.mp hgcd
  · intro hone
    subst hone
    have hday : ∀ t, triggers.fires cron t = true ↔ hourOf t = h ∧ minuteOf t = m := by
      intro t
      rw [hfires, Nat.mod_one]
      exact and_iff_left rfl
    refine ⟨every_iff.mpr ⟨60 * h + m, by unfold dayMinutes; omega, fun t => ?_⟩,
      fun t => (hday t).mp⟩
    rw [hday, clock_iff (by omega), Nat.mul_one]

/-- The weekdays on which it fires. -/
theorem Reads.matches_weekday {days : List ℕ} (hdays : (dow.splitOn ',').mapM dayName = some days)
    (w : ℕ) :
    (∃ item ∈ (dow ++ boms).splitOn ',', triggers.matchesItem .dayOfWeek item w = true) ↔
      ∃ item ∈ dow.splitOn ',', mondayFirst item = some w := by
  have hcomma : ',' ∉ boms := fun h => absurd (hreads.marks _ h) (by decide)
  obtain ⟨items, last, hsplit, hboth⟩ := exists_splitOn_append dow hcomma
  have haccepts := hreads.acceptsWeekdays
  rw [hboth] at haccepts ⊢
  rw [hsplit] at hdays ⊢
  have hday : ∀ item ∈ items ++ [last], ∃ d, dayName item = some d := by
    intro item hitem
    obtain ⟨d, -, hd⟩ := List.mem_map.mp (map_of_mapM hdays ▸ List.mem_map_of_mem hitem)
    exact ⟨d, hd.symm⟩
  have hitems : ∀ item ∈ items,
      (triggers.matchesItem .dayOfWeek item w = true ↔ mondayFirst item = some w) := by
    intro item hitem
    obtain ⟨d, hd⟩ := hday item (List.mem_append_left _ hitem)
    have hmatches := matches_item hd (List.forall_mem_nil _)
      (by rw [List.append_nil]; exact haccepts item (List.mem_append_left _ hitem)) w
    rwa [List.append_nil] at hmatches
  obtain ⟨d, hd⟩ := hday last (List.mem_append_right _ (List.mem_singleton_self last))
  have hlast :=
    matches_item hd hreads.marks
      (haccepts _ (List.mem_append_right _ (List.mem_singleton_self _))) w
  constructor
  · intro ⟨item, hitem, hmatch⟩
    obtain hmem | hmem := List.mem_append.mp hitem
    · exact ⟨item, List.mem_append_left _ hmem, (hitems item hmem).mp hmatch⟩
    · obtain rfl := List.mem_singleton.mp hmem
      exact ⟨last, List.mem_append_right _ (List.mem_singleton_self last), hlast.mp hmatch⟩
  · intro ⟨item, hitem, hmatch⟩
    obtain hmem | hmem := List.mem_append.mp hitem
    · exact ⟨item, List.mem_append_left _ hmem, (hitems item hmem).mpr hmatch⟩
    · obtain rfl := List.mem_singleton.mp hmem
      exact ⟨_, List.mem_append_right _ (List.mem_singleton_self _), hlast.mpr hmatch⟩

/-- On weekdays: where the two numberings come to the same days. -/
theorem Reads.says_weekly_iff {days : List ℕ} {h m : ℕ}
    (hclock : clockTime minute hour = some (h, m))
    (hdom : dom = ['*']) (hdays : (dow.splitOn ',').mapM dayName = some days) :
    (Phrase.weekly days h m).Says (triggers.fires cron · = true) ↔ WeekdaysAgree dow := by
  obtain ⟨_, _, _, _, hh, hm⟩ := clockTime_eq_some hclock
  have hfires : ∀ t, triggers.fires cron t = true ↔
      (hourOf t = h ∧ minuteOf t = m) ∧
        ∃ item ∈ dow.splitOn ',', mondayFirst item = some (weekdayOf t) := by
    intro t
    rw [hreads.fires_iff, ← and_assoc, hreads.matches_clock hclock, hreads.matches_weekday hdays,
      hdom, triggers.star]
    exact and_congr_right' (and_iff_right rfl)
  have hmem : ∀ d, d ∈ days ↔ ∃ item ∈ dow.splitOn ',', dayName item = some d := by
    intro d
    rw [← List.mem_map, map_of_mapM hdays]
    simp
  constructor
  · intro hphrase w hw
    have htime : weekdayOf (60 * h + m + dayMinutes * w) = w ∧
        hourOf (60 * h + m + dayMinutes * w) = h ∧ minuteOf (60 * h + m + dayMinutes * w) = m := by
      unfold weekdayOf hourOf minuteOf dayMinutes
      omega
    have hat : triggers.fires cron (60 * h + m + dayMinutes * w) = true ↔ _ :=
      hphrase (60 * h + m + dayMinutes * w)
    rw [hfires, htime.1, hmem, and_iff_right htime.2, and_iff_left htime.2] at hat
    exact hat.symm
  · intro hagree t
    have hat := hagree (weekdayOf t) (Nat.mod_lt _ (by decide))
    change triggers.fires cron t = true ↔ _
    rw [hfires, hmem, hat, and_comm]

end Shapes

end CronTriggers

/-! ## When the phrase is right -/

/-- The fields of which the phrase says when they fire. -/
structure Phrasable (minute hour dom dow : List Char) : Prop where
  minutes : ∀ n, stepOf minute = some n → n ∣ 60
  hours : ∀ n, stepOf hour = some n → n ∣ 24
  days : ∀ n, stepOf dom = some n → n = 1
  weekdays : WeekdaysAgree dow

/-- A number is no step. -/
theorem stepOf_of_isNumber {field : List Char} (h : isNumber field = true) :
    stepOf field = none := by
  cases hstep : stepOf field with
  | none => rfl
  | some n =>
      obtain ⟨digits, rfl, -⟩ := stepOf_eq_some hstep
      exact absurd h (by simp [isNumber])

/-- A field without a step asks nothing of it. -/
theorem forall_stepOf_of_none {field : List Char} {P : ℕ → Prop} (h : stepOf field = none) :
    ∀ n, stepOf field = some n → P n := by
  intro n hn
  rw [h] at hn
  cases hn

/-- What holds of the step that is read holds of every one. -/
theorem forall_stepOf_of_some {field : List Char} {P : ℕ → Prop} {n : ℕ} (h : stepOf field = some n)
    (hn : P n) : ∀ k, stepOf field = some k → P k := by
  intro k hk
  obtain rfl := Option.some.inj (h.symm.trans hk)
  exact hn

/-- A star names no weekday. -/
theorem weekdaysAgree_star : WeekdaysAgree ['*'] := by
  intro w _
  have hnone : dayName ['*'] = none ∧ mondayFirst ['*'] = none := by decide
  rw [List.splitOn_eq_singleton stiff_star.comma]
  simp only [List.mem_singleton, exists_eq_left, hnone.1, hnone.2, reduceCtorEq]

/-- Names are the same days to both. -/
theorem weekdaysAgree_of_names {dow : List Char}
    (h : ∀ item ∈ dow.splitOn ',', isNumber item = false) :
    WeekdaysAgree dow := by
  intro w hw
  refine exists_congr fun item => and_congr_right fun hitem => ?_
  have hsame : nameIndex dayAliases item = some ((w + 1) % 7) ↔
      nameIndex weekdays item = some w := by
    obtain ⟨v, hv, hweekday, halias, _⟩ | ⟨hweekday, halias⟩ := nameIndex_cases item
    · rw [hweekday, halias, Option.some.injEq, Option.some.injEq]
      omega
    · rw [hweekday, halias]
      exact iff_of_false (by simp) (by simp)
  unfold dayName mondayFirst
  rw [h item hitem]
  exact hsame

/-- A number for a weekday is another day to the phrase. -/
theorem not_weekdaysAgree_number {c : Char} (hdigit : c.isDigit = true) (hrange : decimal [c] ≤ 6) :
    ¬ WeekdaysAgree [c] := by
  intro h
  have hnumber : isNumber [c] = true := by simp [isNumber, hdigit]
  have hday : dayName [c] = some (decimal [c] % 7) := if_pos (by rw [hnumber]; rfl)
  have hmonday : mondayFirst [c] = some (decimal [c]) := if_pos (by rw [hnumber]; rfl)
  have hat := h (decimal [c]) (by omega)
  rw [List.splitOn_eq_singleton (stiff_of_isNumber hnumber).comma] at hat
  simp only [List.mem_singleton, exists_eq_left, hday, hmonday, Option.some.injEq, iff_true] at hat
  omega

/-- At a clock time only the step of the days and the weekdays can go wrong. -/
theorem Phrasable.of_clock {minute hour dom dow : List Char} {h m : ℕ}
    (hclock : clockTime minute hour = some (h, m)) :
    Phrasable minute hour dom dow ↔ (∀ n, stepOf dom = some n → n = 1) ∧ WeekdaysAgree dow := by
  obtain ⟨hminute, hhour, _⟩ := clockTime_eq_some hclock
  constructor
  · exact fun hall => ⟨hall.days, hall.weekdays⟩
  · intro ⟨hdays, hweekdays⟩
    exact ⟨forall_stepOf_of_none (stepOf_of_isNumber hminute),
      forall_stepOf_of_none (stepOf_of_isNumber hhour), hdays, hweekdays⟩

/-- **Honesty.**  For a text that the scheduler accepts and that gets a phrase. -/
theorem describeCron_says_iff {triggers : CronTriggers} {cron : String}
    (haccepts : triggers.accepts cron = true)
    (hphrase : ∀ text, describeCron cron ≠ .raw text) :
    (describeCron cron).Says (triggers.fires cron · = true) ↔
      ∀ minute hour dom month dow, words isJsSpace cron.toList = [minute, hour, dom, month, dow] →
        Phrasable minute hour dom dow := by
  obtain ⟨minute, hour, dom, dow, boms, hwords, hshape, hreads⟩ :=
    CronTriggers.reads_of_accepts haccepts hphrase
  have hall : (∀ minute' hour' dom' month' dow',
      words isJsSpace cron.toList = [minute', hour', dom', month', dow'] →
      Phrasable minute' hour' dom' dow') ↔ Phrasable minute hour dom dow := by
    rw [hwords]
    constructor
    · exact fun h => h _ _ _ _ _ rfl
    · intro h minute' hour' dom' month' dow' heq
      simp only [List.cons.injEq] at heq
      obtain ⟨rfl, rfl, rfl, -, rfl, -⟩ := heq
      exact h
  rw [hall]
  clear hall hwords hphrase
  generalize describeCron cron = phrase at hshape ⊢
  have hstar : ∀ {field}, field = ['*'] → stepOf field = none := fun heq => heq ▸ rfl
  cases hshape with
  | everyDay hclock hdom hdow =>
      refine iff_of_true (hreads.says_everyDay hclock hdom hdow)
        ((Phrasable.of_clock hclock).mpr ?_)
      exact ⟨forall_stepOf_of_none (hstar hdom), hdow ▸ weekdaysAgree_star⟩
  | everyMinutes hstep hhour hdom hdow =>
      rw [hreads.says_everyMinutes_iff hstep hhour hdom hdow]
      constructor
      · intro hdvd
        exact ⟨forall_stepOf_of_some hstep hdvd, forall_stepOf_of_none (hstar hhour),
          forall_stepOf_of_none (hstar hdom), hdow ▸ weekdaysAgree_star⟩
      · exact fun h => h.minutes _ hstep
  | everyHours hstep hminute hdom hdow =>
      rw [hreads.says_everyHours_iff hstep hminute hdom hdow]
      have hnone := stepOf_of_isNumber (isNumber_of_isShortNumber hminute)
      constructor
      · intro hdvd
        exact ⟨forall_stepOf_of_none hnone, forall_stepOf_of_some hstep hdvd,
          forall_stepOf_of_none (hstar hdom), hdow ▸ weekdaysAgree_star⟩
      · exact fun h => h.hours _ hstep
  | everyDays hclock hstep hdow =>
      rw [hreads.says_everyDays_iff hclock hstep hdow, Phrasable.of_clock hclock]
      constructor
      · intro hone
        exact ⟨forall_stepOf_of_some hstep hone, hdow ▸ weekdaysAgree_star⟩
      · exact fun h => h.1 _ hstep
  | monthly hclock hdom hdow =>
      refine iff_of_true (hreads.says_monthly hclock hdom hdow) ((Phrasable.of_clock hclock).mpr ?_)
      have hnone := stepOf_of_isNumber (isNumber_of_isShortNumber hdom)
      exact ⟨forall_stepOf_of_none hnone, hdow ▸ weekdaysAgree_star⟩
  | weekly hclock hdom hdays =>
      rw [hreads.says_weekly_iff hclock hdom hdays, Phrasable.of_clock hclock]
      exact (and_iff_right (forall_stepOf_of_none (hstar hdom))).symm

/-! ## An example -/

def plainAccepts (field : CronField) (item : List Char) : Bool :=
  item == ['*'] ||
    (isNumber item && decide (field.least ≤ decimal item ∧ decimal item ≤ field.greatest)) ||
    ((stepOf item).any fun n => decide (1 ≤ n ∧ n ≤ field.greatest - field.least)) ||
    (field == .dayOfWeek &&
      item.head?.any Char.isAlpha && (nameIndex weekdays (item.takeWhile (· != bom))).isSome)

def plainMatches (field : CronField) (item : List Char) (value : ℕ) : Bool :=
  item == ['*'] ||
    match stepOf item with
    | some n => decide ((value - field.least) % n = 0)
    | none =>
        if isNumber item then decide (value = decimal item)
        else nameIndex weekdays (item.takeWhile (· != bom)) == some value

/-- A plain number matches itself. -/
theorem plain_number {field : CronField} {item : List Char}
    (haccepts : plainAccepts field item = true)
    (hitem : isNumber item = true) :
    (field.least ≤ decimal item ∧ decimal item ≤ field.greatest) ∧
      ∀ value, plainMatches field item value = true ↔ value = decimal item := by
  have hstiff := stiff_of_isNumber hitem
  have hstar : (item == ['*']) = false := by
    rw [beq_eq_false_iff_ne]
    rintro rfl
    exact absurd hitem (by decide)
  have hstep := stepOf_of_isNumber hitem
  have hletter : item.head?.any Char.isAlpha = false := by
    cases hhead : item.head? with
    | none => rfl
    | some c => exact hstiff.letter c hhead
  unfold plainAccepts at haccepts
  rw [hstar, hstep, hletter, hitem] at haccepts
  refine ⟨by simpa using haccepts, fun value => ?_⟩
  unfold plainMatches
  rw [hstar, hstep, if_pos hitem, Bool.false_or, decide_eq_true_eq]

/-- A plain step matches every so many values from the least one. -/
theorem plain_step {field : CronField} {item : List Char} {n : ℕ}
    (haccepts : plainAccepts field item = true)
    (hstep : stepOf item = some n) :
    1 ≤ n ∧ ∀ value, plainMatches field item value = true ↔ (value - field.least) % n = 0 := by
  have hstiff := stiff_of_stepOf hstep
  have hnumber : isNumber item = false := by
    cases hitem : isNumber item with
    | false => rfl
    | true =>
        rw [stepOf_of_isNumber hitem] at hstep
        cases hstep
  have hstar : (item == ['*']) = false := by
    rw [beq_eq_false_iff_ne]
    rintro rfl
    cases hstep
  have hletter : item.head?.any Char.isAlpha = false := by
    cases hhead : item.head? with
    | none => rfl
    | some c => exact hstiff.letter c hhead
  unfold plainAccepts at haccepts
  rw [hstar, hstep, hletter, hnumber] at haccepts
  refine ⟨(by simpa using haccepts : 1 ≤ n ∧ n ≤ field.greatest - field.least).1, fun value => ?_⟩
  unfold plainMatches
  rw [hstar, hstep, Bool.false_or, decide_eq_true_eq]

/-- A plain name matches its day, whatever marks follow it. -/
theorem plain_name {item boms : List Char} {day : ℕ} (hitem : nameIndex weekdays item = some day)
    (hboms : ∀ c ∈ boms, c = bom) (value : ℕ) :
    plainMatches .dayOfWeek (item ++ boms) value = true ↔ value = day := by
  obtain ⟨_, -, -, -, hne, hletters⟩ | ⟨hnone, -⟩ := nameIndex_cases item
  · have hstiff : ¬ Stiff (item ++ boms) := by
      intro hstiff
      obtain ⟨c, rest, rfl⟩ := List.exists_cons_of_ne_nil hne
      have hnot := hstiff.letter c rfl
      rw [hletters c List.mem_cons_self] at hnot
      cases hnot
    have hstar : (item ++ boms == ['*']) = false := by
      rw [beq_eq_false_iff_ne]
      exact fun heq => hstiff (heq ▸ stiff_star)
    have hstep : stepOf (item ++ boms) = none := by
      cases hstep : stepOf (item ++ boms) with
      | none => rfl
      | some n => exact absurd (stiff_of_stepOf hstep) hstiff
    have hnumber : ¬ isNumber (item ++ boms) = true := fun h => hstiff (stiff_of_isNumber h)
    have hname : (item ++ boms).takeWhile (· != bom) = item := by
      refine (span_run (fun c hc => ?_) fun c hc => ?_).1
      · rw [bne_iff_ne]
        exact (isJsSpace_of_visible (visible_of_isAlpha (hletters c hc))).2
      · obtain rfl := hboms c (List.mem_of_mem_head? hc)
        rfl
    unfold plainMatches
    rw [hstar, hstep, if_neg hnumber, hname, hitem, Bool.false_or, beq_iff_eq, Option.some.injEq,
      eq_comm]
  · rw [hnone] at hitem
    cases hitem

/-- A plain item with a mark begins with a letter. -/
theorem plain_letter_of_bom {field : CronField} {item : List Char}
    (haccepts : plainAccepts field item = true)
    (hbom : bom ∈ item) : ∃ c, item.head? = some c ∧ c.isAlpha = true := by
  have hvisible : (∀ c ∈ item, Visible c) → False :=
    fun hall => (isJsSpace_of_visible (hall bom hbom)).2 rfl
  unfold plainAccepts at haccepts
  rw [Bool.or_eq_true, Bool.or_eq_true, Bool.or_eq_true] at haccepts
  obtain ((hstar | hnumber) | hstep) | hname := haccepts
  · rw [eq_of_beq hstar] at hvisible
    exact (hvisible stiff_star.visible).elim
  · rw [Bool.and_eq_true] at hnumber
    exact (hvisible (visible_of_isNumber hnumber.1)).elim
  · obtain ⟨n, hn, _⟩ := (Option.any_eq_true _ _).mp  hstep
    exact (hvisible (stiff_of_stepOf hn).visible).elim
  · rw [Bool.and_eq_true, Bool.and_eq_true] at hname
    obtain ⟨c, hc, halpha⟩ := (Option.any_eq_true _ _).mp  hname.1.2
    exact ⟨c, hc, halpha⟩

/-- A scheduler of asterisks, numbers, steps and names. -/
def plainTriggers : CronTriggers where
  accepts cron := decide ((words isPySpace cron.toList).length = 5) &&
    (CronField.all.zip (words isPySpace cron.toList)).all fun part =>
      (part.2.splitOn ',').all (plainAccepts part.1)
  fires cron t := (CronField.all.zip (words isPySpace cron.toList)).all fun part =>
    (part.2.splitOn ',').any fun item => plainMatches part.1 item (part.1.valueAt t)
  acceptsItem := plainAccepts
  matchesItem := plainMatches
  reads cron h := by
    rw [Bool.and_eq_true, decide_eq_true_eq, List.all_eq_true] at h
    refine ⟨h.1, fun part hpart item hitem => ?_, fun t => ?_⟩
    · exact List.all_eq_true.mp (h.2 part hpart) item hitem
    · simp only [List.all_eq_true, List.any_eq_true]
  star _ _ := rfl
  number _ _ := plain_number
  step _ _ _ := plain_step
  name _ _ _ := plain_name
  letter_of_bom _ _ := plain_letter_of_bom

/-- Every two hours, on the hour. -/
theorem says_twoHours :
    (plainTriggers.accepts "0 */2 * * *" = true ∧ ∀ text, describeCron "0 */2 * * *" ≠ .raw text) ∧
      ((describeCron "0 */2 * * *").Says (plainTriggers.fires "0 */2 * * *" · = true) ↔
        ∀ minute hour dom month dow,
          words isJsSpace "0 */2 * * *".toList = [minute, hour, dom, month, dow] →
          Phrasable minute hour dom dow) := by
  have haccepts : plainTriggers.accepts "0 */2 * * *" = true := by decide +kernel
  have hphrase : ∀ text, describeCron "0 */2 * * *" ≠ .raw text := by
    have hdescribe : describeCron "0 */2 * * *" = .everyHours 2 := by decide +kernel
    intro text h
    rw [hdescribe] at h
    cases h
  exact ⟨⟨haccepts, hphrase⟩, describeCron_says_iff haccepts hphrase⟩

/-- A Saturday to the phrase, a Sunday to the scheduler. -/
theorem not_says_saturday :
    ¬ ∀ cron, plainTriggers.accepts cron = true → (∀ text, describeCron cron ≠ .raw text) →
      (describeCron cron).Says (plainTriggers.fires cron · = true) := by
  intro h
  have hdescribe : describeCron "30 5 * * 6" = .weekly [6] 5 30 := by decide +kernel
  have hphrase := h "30 5 * * 6" (by decide +kernel) (by rw [hdescribe]; simp)
  rw [hdescribe] at hphrase
  have hfires : plainTriggers.fires "30 5 * * 6" (60 * 5 + 30 + 1440 * 6) = true := by
    decide +kernel
  have hsaturday := ((hphrase (60 * 5 + 30 + 1440 * 6)).mp hfires).1
  exact absurd hsaturday (by decide)

end Nebularr
