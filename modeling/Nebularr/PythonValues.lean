import Nebularr.PythonText

/-!
# JSON values, as Python converts them

A decoded JSON value, and what `str`, `int` and `float` make of it.  Floating
point is a parameter: only how numbers are read from a text and written to one
matters here, and that one is at least one.
-/

namespace Nebularr

/-- A computation that answers has both its parts answer. -/
theorem exists_of_bind_ok {ε α β : Type} {x : Except ε α} {f : α → Except ε β} {b : β}
    (h : (x >>= f) = .ok b) : ∃ a, x = .ok a ∧ f a = .ok b := by
  cases x with
  | error e => cases h
  | ok a => exact ⟨a, rfl, h⟩

/-- A decoded JSON value, numbers kept whole; `F` are the floating-point numbers.  An object keeps
each key once. -/
inductive PyValue (F : Type)
  | null
  | bool (b : Bool)
  | int (n : Int)
  | real (x : F)
  | str (text : String)
  | arr (items : List (PyValue F))
  | obj (fields : List (String × PyValue F))
deriving Repr

/-- What `int(value)` comes to: `TypeError` and `ValueError` are refusals, an
infinite number overflows. -/
inductive IntReading
  | int (n : Int)
  | refused
  | overflow
deriving DecidableEq, Repr

/-- Python's numbers: `float` of an integer (none when it overflows) and of a
text, `int` of a number and of a text, and the texts of values. -/
structure PyNumbers (F : Type) where
  ofInt : Int → Option F
  ofText : String → Option F
  truncated : F → IntReading
  intOfText : String → Option Int
  text : F → String
  containerText : PyValue F → String
  one : F
  lessThan : F → F → Bool
  notPositive : F → Bool
  isZero : F → Bool
  one_irrefl : lessThan one one = false

namespace PyNumbers

variable {F : Type} (num : PyNumbers F)

/-- `str(value)`. -/
def str : PyValue F → String
  | .null => "None"
  | .bool true => "True"
  | .bool false => "False"
  | .int n => toString n
  | .real x => num.text x
  | .str text => text
  | value => num.containerText value

/-- Whether `if value` takes its branch. -/
def truthy : PyValue F → Bool
  | .null => false
  | .bool b => b
  | .int n => n ≠ 0
  | .real x => !num.isZero x
  | .str text => text ≠ ""
  | .arr items => !items.isEmpty
  | .obj fields => !fields.isEmpty

/-- `float(value)`; `none` where it raises. -/
def float : PyValue F → Option F
  | .bool b => num.ofInt (if b then 1 else 0)
  | .int n => num.ofInt n
  | .real x => some x
  | .str text => num.ofText text
  | _ => none

/-- `int(value)`. -/
def int : PyValue F → IntReading
  | .bool b => .int (if b then 1 else 0)
  | .int n => .int n
  | .real x => num.truncated x
  | .str text => (num.intOfText text).elim .refused .int
  | _ => .refused

/-- `max(x, 1.0)`. -/
def atLeastOne (x : F) : F := if num.lessThan x num.one then num.one else x

@[simp] theorem atLeastOne_atLeastOne (x : F) :
    num.atLeastOne (num.atLeastOne x) = num.atLeastOne x := by
  unfold atLeastOne
  by_cases h : num.lessThan x num.one = true
  · simp [h, num.one_irrefl]
  · simp [h]

/-- `str(value).strip()`. -/
def stripped (value : PyValue F) : String := strip (num.str value)

/-- `[str(v).strip() for v in items if str(v).strip()]`. -/
def strippedTexts (items : List (PyValue F)) : List String :=
  (items.map num.stripped).filter (· ≠ "")

/-- A value that is a boolean or a word for one. -/
def truth (value : PyValue F) : Option Bool :=
  match value with
  | .bool b => some b
  | value =>
      let word := (num.stripped value).toLower
      if word ∈ ["1", "true", "yes", "on"] then some true
      else if word ∈ ["0", "false", "no", "off"] then some false
      else none

/-- `to_bool` of the routers, and `_parse_bool` of the stores. -/
def toBool (value : PyValue F) (default : Bool) : Bool := (num.truth value).getD default

end PyNumbers

/-- Whole numbers for floats. -/
def wholeNumbers : PyNumbers Int where
  ofInt := some
  ofText := String.toInt?
  truncated := .int
  intOfText := String.toInt?
  text x := toString x ++ ".0"
  containerText _ := "[]"
  one := 1
  lessThan x y := decide (x < y)
  notPositive x := decide (x ≤ 0)
  isZero x := decide (x = 0)
  one_irrefl := decide_eq_false (lt_irrefl 1)

/-- A settings row, as its reader decodes it: missing or blank, undecodable, or
holding a value. -/
inductive Stored (α : Type)
  | blank
  | garbled
  | value (a : α)
deriving Repr

/-- A text without white space around it that is not empty. -/
def CleanText (text : String) : Prop := strip text = text ∧ text ≠ ""

/-- `[t.strip() for t in texts if t.strip()]`. -/
def cleaned (texts : List String) : List String := (texts.map strip).filter (· ≠ "")

theorem clean_of_mem_cleaned {texts : List String} {text : String} (h : text ∈ cleaned texts) :
    CleanText text := by
  obtain ⟨hmem, hne⟩ := List.mem_filter.mp h
  obtain ⟨raw, _, rfl⟩ := List.mem_map.mp hmem
  exact ⟨strip_strip raw, of_decide_eq_true hne⟩

theorem cleaned_of_clean {texts : List String} (h : ∀ text ∈ texts, CleanText text) :
    cleaned texts = texts := by
  have hmap : texts.map strip = texts :=
    (List.map_congr_left fun text htext => (h text htext).1).trans (List.map_id texts)
  rw [cleaned, hmap, List.filter_eq_self]
  exact fun text htext => decide_eq_true (h text htext).2

end Nebularr
