import Mathlib.Algebra.Ring.Int.Defs
import Mathlib.Data.List.DropRight
import Mathlib.Data.String.Basic

/-!
# Text, as Python takes it apart

`str.strip`, `str.split`, `str.splitlines` and `int` with the characters that
Python counts as white space, as line ends and as digits, on lists of characters;
and the classes of characters that tell one regular expression from another.
-/

namespace Nebularr

/-! ## Stripping -/

section Strip

variable {α : Type} (p : α → Bool)

/-- A list without the elements at its two ends that pass a test. -/
def stripBy (l : List α) : List α := (l.dropWhile p).rdropWhile p

variable {p} {l : List α}

/-- What is stripped does not begin with what is stripped off. -/
theorem head_stripBy {a : α} (h : (stripBy p l).head? = some a) : p a = false := by
  have hfirst : (l.dropWhile p).head? = some a := by
    obtain ⟨rest, hrest⟩ := List.rdropWhile_prefix p (l := l.dropWhile p)
    unfold stripBy at h
    rw [← hrest, List.head?_append, h]
    rfl
  have hnot := List.head?_dropWhile_not p l
  rw [hfirst] at hnot
  simpa using hnot

/-- Nor does it end with it. -/
theorem getLast_stripBy {a : α} (h : (stripBy p l).getLast? = some a) : p a = false := by
  unfold stripBy at h
  have hne : (l.dropWhile p).rdropWhile p ≠ [] := by
    intro hnil
    rw [hnil] at h
    cases h
  have hnot := List.rdropWhile_last_not p _ hne
  rw [List.getLast?_eq_some_getLast hne, Option.some.injEq] at h
  rw [h] at hnot
  exact Bool.eq_false_iff.mpr hnot

/-- What there is nothing to strip from. -/
theorem stripBy_eq_self_iff :
    stripBy p l = l ↔
      (∀ a, l.head? = some a → p a = false) ∧ ∀ a, l.getLast? = some a → p a = false := by
  constructor
  · intro h
    rw [← h]
    exact ⟨fun _ => head_stripBy, fun _ => getLast_stripBy⟩
  · intro ⟨hhead, hlast⟩
    have hdrop : l.dropWhile p = l := by
      cases l with
      | nil => rfl
      | cons a rest =>
          have ha := hhead a rfl
          exact List.dropWhile_cons_of_neg (by simp [ha])
    rw [stripBy, hdrop, List.rdropWhile_eq_self_iff]
    intro hne
    simp [hlast _ (List.getLast?_eq_some_getLast hne)]

/-- A list that does not start with such an element leaves something. -/
theorem stripBy_ne_nil {a : α} (hhead : l.head? = some a) (ha : p a = false) :
    stripBy p l ≠ [] := by
  cases l with
  | nil => cases hhead
  | cons b rest =>
      obtain rfl := Option.some.inj hhead
      rw [stripBy, List.dropWhile_cons_of_neg (by simp [ha])]
      intro hnil
      rw [List.rdropWhile_eq_nil_iff] at hnil
      exact absurd (hnil b List.mem_cons_self) (by simp [ha])

/-- Stripping only leaves out. -/
theorem stripBy_sublist (l : List α) : (stripBy p l).Sublist l :=
  (List.rdropWhile_prefix p _).sublist.trans (List.dropWhile_sublist p)

/-- Stripping twice is stripping once. -/
theorem stripBy_stripBy : stripBy p (stripBy p l) = stripBy p l :=
  stripBy_eq_self_iff.mpr ⟨fun _ => head_stripBy, fun _ => getLast_stripBy⟩

end Strip

/-- The code points that `str.isspace` counts. -/
def isSpaceCode (n : ℕ) : Bool :=
  (9 ≤ n && n ≤ 13) || (28 ≤ n && n ≤ 32) || n = 0x85 || n = 0xa0 || n = 0x1680 ||
    (0x2000 ≤ n && n ≤ 0x200a) || n = 0x2028 || n = 0x2029 || n = 0x202f || n = 0x205f || n = 0x3000

/-- `str.isspace` of one character. -/
def isPySpace (c : Char) : Bool := isSpaceCode c.toNat

/-- `str.strip()`. -/
def strip (text : String) : String := String.ofList (stripBy isPySpace text.toList)

/-- Stripping a text twice is stripping it once. -/
@[simp] theorem strip_strip (text : String) : strip (strip text) = strip text := by
  unfold strip
  rw [String.toList_ofList, stripBy_stripBy]

/-- Stripping a text only leaves out. -/
theorem strip_sublist (text : String) : (strip text).toList.Sublist text.toList := by
  rw [strip, String.toList_ofList]
  exact stripBy_sublist text.toList

/-- A stripped text does not begin with white space. -/
theorem head_strip {text : String} {c : Char} (h : (strip text).toList.head? = some c) :
    isPySpace c = false := by
  rw [strip, String.toList_ofList] at h
  exact head_stripBy h

/-- A text that begins with something visible is not stripped to nothing. -/
theorem strip_ne_empty {text : String} {c : Char} (hhead : text.toList.head? = some c)
    (hc : isPySpace c = false) : strip text ≠ "" := by
  intro hempty
  refine stripBy_ne_nil hhead hc ?_
  rw [← String.toList_ofList (l := stripBy isPySpace text.toList)]
  exact String.toList_eq_nil_iff.mpr hempty

/-- A text is stripped already if neither end of it is white space. -/
theorem strip_eq_self_iff {text : String} :
    strip text = text ↔
      (∀ c, text.toList.head? = some c → isPySpace c = false) ∧
        ∀ c, text.toList.getLast? = some c → isPySpace c = false := by
  rw [← stripBy_eq_self_iff, strip]
  constructor
  · intro h
    rw [← String.toList_inj, String.toList_ofList] at h
    exact h
  · intro h
    rw [h, String.ofList_toList]

/-! ## Lower case -/

/-- The lower case of a lower case letter is itself. -/
theorem toLower_toLower (c : Char) : c.toLower.toLower = c.toLower := by
  unfold Char.toLower
  by_cases h : c.val ≥ 'A'.val ∧ c.val ≤ 'Z'.val
  · rw [dif_pos h, dif_neg]
    simp only [UInt32.le_iff_toNat_le, ge_iff_le, UInt32.toNat_add] at h ⊢
    simp at h ⊢
    omega
  · rw [dif_neg h, dif_neg h]

/-- A text is lowered character by character. -/
theorem toList_toLower (text : String) : text.toLower.toList = text.toList.map Char.toLower :=
  String.toList_map

/-- Lowering a text twice is lowering it once. -/
theorem lowered_toLower (text : String) : text.toLower.toLower = text.toLower := by
  apply String.toList_inj.mp
  rw [toList_toLower, toList_toLower, List.map_map]
  exact List.map_congr_left fun c _ => toLower_toLower c

/-! ## Splitting -/

/-- A character at which `str.splitlines` ends a line. -/
def isLineEnd (c : Char) : Bool :=
  let n := c.toNat
  (10 ≤ n && n ≤ 13) || (28 ≤ n && n ≤ 30) || n = 0x85 || n = 0x2028 || n = 0x2029

/-- `str.splitlines`, with an empty line more at `\r\n` and at the end. -/
def splitLines (text : String) : List String :=
  (text.toList.splitOnP isLineEnd).map String.ofList

/-- `str.split(",")`. -/
def splitCommas (text : String) : List String :=
  (text.toList.splitOnP fun c => c = ',').map String.ofList

/-! ## Lists that are read item by item -/

/-- If each element gives a value, these are the values. -/
theorem map_of_mapM {α β : Type} {f : α → Option β} {l : List α} {l' : List β}
    (h : l.mapM f = some l') :
    l.map f = l'.map some := by
  induction l generalizing l' with
  | nil =>
      obtain rfl := Option.some.inj h
      rfl
  | cons a l ih =>
      rw [List.mapM_cons] at h
      obtain ⟨b, hb, hrest⟩ := Option.bind_eq_some_iff.mp h
      obtain ⟨bs, hbs, heq⟩ := Option.bind_eq_some_iff.mp hrest
      obtain rfl := Option.some.inj heq
      rw [List.map_cons, List.map_cons, hb, ih hbs]

/-- A list gives values if each element does. -/
theorem isSome_mapM_iff {α β : Type} {f : α → Option β} {l : List α} :
    (l.mapM f).isSome = true ↔ ∀ a ∈ l, (f a).isSome = true := by
  induction l with
  | nil => exact iff_of_true rfl (List.forall_mem_nil _)
  | cons a l ih =>
      rw [List.mapM_cons, List.forall_mem_cons, ← ih]
      cases f a with
      | none => exact iff_of_false Bool.false_ne_true fun h => Bool.false_ne_true h.1
      | some b => cases l.mapM f <;> simp

/-! ## Numbers -/

/-- The zeros of the decimal digits of Unicode; the other nine follow each. -/
def decimalZeros : List ℕ :=
  [0x30, 0x660, 0x6f0, 0x7c0, 0x966, 0x9e6, 0xa66, 0xae6, 0xb66, 0xbe6, 0xc66, 0xce6, 0xd66,
   0xde6, 0xe50, 0xed0, 0xf20, 0x1040, 0x1090, 0x17e0, 0x1810, 0x1946, 0x19d0, 0x1a80, 0x1a90,
   0x1b50, 0x1bb0, 0x1c40, 0x1c50, 0xa620, 0xa8d0, 0xa900, 0xa9d0, 0xa9f0, 0xaa50, 0xabf0,
   0xff10, 0x104a0, 0x10d30, 0x10d40, 0x11066, 0x110f0, 0x11136, 0x111d0, 0x112f0, 0x11450,
   0x114d0, 0x11650, 0x116c0, 0x116d0, 0x116da, 0x11730, 0x118e0, 0x11950, 0x11bf0, 0x11c50,
   0x11d50, 0x11da0, 0x11f50, 0x16130, 0x16a60, 0x16ac0, 0x16b50, 0x16d70, 0x1ccf0, 0x1d7ce,
   0x1d7d8, 0x1d7e2, 0x1d7ec, 0x1d7f6, 0x1e140, 0x1e2f0, 0x1e4f0, 0x1e5f1, 0x1e950, 0x1fbf0]

/-- The value of a decimal digit. -/
def decimalValue (c : Char) : Option ℕ :=
  (decimalZeros.find? fun first => decide (first ≤ c.toNat) && decide (c.toNat ≤ first + 9)).map
    fun first => c.toNat - first

/-- No decimal digit is white space. -/
theorem isPySpace_of_isSome_decimalValue {c : Char} (h : (decimalValue c).isSome = true) :
    isPySpace c = false := by
  have hcodes : ∀ first ∈ decimalZeros, ∀ k < 10, isSpaceCode (first + k) = false := by
    decide +kernel
  rw [decimalValue, Option.isSome_map, List.find?_isSome] at h
  obtain ⟨first, hfirst, hrange⟩ := h
  rw [Bool.and_eq_true, decide_eq_true_iff, decide_eq_true_iff] at hrange
  have hcode := hcodes first hfirst (c.toNat - first) (by omega)
  rwa [Nat.add_sub_cancel' hrange.1] at hcode

/-- The number a run of decimal digits spells. -/
def decimalsValue (digits : List Char) : Int :=
  digits.foldl (fun n c => n * 10 + ((decimalValue c).getD 0 : ℕ)) 0

/-- The white space that `int` skips: not the four ASCII separators. -/
def isIntSpace (c : Char) : Bool := isPySpace c && !(28 ≤ c.toNat && c.toNat ≤ 31)

/-- Decimal digits, with single underscores between them. -/
def pyDigits (text : List Char) : Option Int :=
  let groups := text.splitOn '_'
  if groups.all fun g => !g.isEmpty && g.all fun c => (decimalValue c).isSome then
    some (decimalsValue groups.flatten)
  else none

/-- `int(text)`. -/
def pyInt (text : List Char) : Option Int :=
  match stripBy isIntSpace text with
  | '-' :: rest => (pyDigits rest).map fun n => -n
  | '+' :: rest => pyDigits rest
  | rest => pyDigits rest

/-! ## Classes of characters -/

/-- What a regular expression takes for a digit, with its value, and for white
space. -/
structure TextClasses where
  digit : Char → Option ℕ
  space : Char → Bool
  digit_lt : ∀ c d, digit c = some d → d < 10
  space_of_isSome_digit : ∀ c, (digit c).isSome = true → space c = false
  letters : ∀ c ∈ ['i', 'p', 'x'], (digit c).isSome = false ∧ space c = false

namespace TextClasses

variable (cls : TextClasses)

def isDigit (c : Char) : Bool := (cls.digit c).isSome

/-- The number a run of digits spells. -/
def value (digits : List Char) : Int :=
  digits.foldl (fun n c => n * 10 + ((cls.digit c).getD 0 : ℕ)) 0

/-- One more digit at the end. -/
theorem value_concat (digits : List Char) (c : Char) :
    cls.value (digits ++ [c]) = cls.value digits * 10 + ((cls.digit c).getD 0 : ℕ) := by
  rw [value, List.foldl_append]
  rfl

/-- A number is below the power of ten of its length. -/
theorem value_bounds (digits : List Char) :
    0 ≤ cls.value digits ∧ cls.value digits < 10 ^ digits.length := by
  induction digits using List.reverseRecOn with
  | nil => exact ⟨Int.le_refl 0, by simp [value]⟩
  | append_singleton rest c ih =>
      have hlast : (cls.digit c).getD 0 < 10 := by
        cases hdigit : cls.digit c with
        | none => decide
        | some d => exact cls.digit_lt c d hdigit
      rw [value_concat, List.length_append, List.length_singleton, pow_succ]
      omega

end TextClasses

/-- A digit is below ten. -/
theorem decimalValue_lt {c : Char} {d : ℕ} (h : decimalValue c = some d) : d < 10 := by
  obtain ⟨first, hfirst, rfl⟩ := Option.map_eq_some_iff.mp h
  have hrange := List.find?_some hfirst
  rw [Bool.and_eq_true, decide_eq_true_iff, decide_eq_true_iff] at hrange
  omega

/-- The letters of a resolution are neither digits nor white space. -/
theorem pythonClasses_letters :
    ∀ c ∈ ['i', 'p', 'x'], (decimalValue c).isSome = false ∧ isPySpace c = false := by
  rw [List.forall_mem_cons, List.forall_mem_cons, List.forall_mem_singleton]
  decide +kernel

/-- `\d` and `\s` of Python. -/
def pythonClasses : TextClasses where
  digit := decimalValue
  space := isPySpace
  digit_lt _ _ := decimalValue_lt
  space_of_isSome_digit _ := isPySpace_of_isSome_decimalValue
  letters := pythonClasses_letters

/-- Where a run of elements ends: at the first that is none of them. -/
theorem span_run {α : Type} {p : α → Bool} {run rest : List α} (hrun : ∀ a ∈ run, p a = true)
    (hrest : ∀ a, rest.head? = some a → p a = false) :
    (run ++ rest).takeWhile p = run ∧ (run ++ rest).dropWhile p = rest := by
  have hstop : rest.takeWhile p = [] ∧ rest.dropWhile p = rest := by
    cases rest with
    | nil => exact ⟨rfl, rfl⟩
    | cons a rest =>
        have ha := hrest a rfl
        exact ⟨List.takeWhile_cons_of_neg (by simp [ha]), List.dropWhile_cons_of_neg (by simp [ha])⟩
  rw [List.takeWhile_append_of_pos hrun, List.dropWhile_append_of_pos hrun, hstop.1, hstop.2,
    List.append_nil]
  exact ⟨rfl, rfl⟩

section Agreement

variable {cls cls' : TextClasses} {text : List Char}

/-- Two classifications make no difference to a text. -/
def TextClasses.AlikeOn (cls cls' : TextClasses) (text : List Char) : Prop :=
  ∀ c ∈ text, cls.digit c = cls'.digit c ∧ cls.space c = cls'.space c

/-- Two readings that are alike on a text are so on a part of it. -/
theorem TextClasses.AlikeOn.mono {part : List Char} (h : cls.AlikeOn cls' text)
    (hpart : part ⊆ text) : cls.AlikeOn cls' part :=
  fun c hc => h c (hpart hc)

/-- Two tests that agree on a list cut it at the same place. -/
theorem span_congr {α : Type} {p q : α → Bool} {l : List α} (h : ∀ a ∈ l, p a = q a) :
    l.takeWhile p = l.takeWhile q ∧ l.dropWhile p = l.dropWhile q := by
  induction l with
  | nil => exact ⟨rfl, rfl⟩
  | cons a rest ih =>
      obtain ⟨htake, hdrop⟩ := ih fun b hb => h b (List.mem_cons_of_mem a hb)
      have ha := h a List.mem_cons_self
      rw [List.takeWhile_cons, List.takeWhile_cons, List.dropWhile_cons, List.dropWhile_cons, ha,
        htake, hdrop]
      exact ⟨rfl, rfl⟩

/-- Where they are alike they see the same digits. -/
theorem TextClasses.AlikeOn.isDigit (h : cls.AlikeOn cls' text) :
    ∀ c ∈ text, cls.isDigit c = cls'.isDigit c := by
  intro c hc
  rw [TextClasses.isDigit, TextClasses.isDigit, (h c hc).1]

/-- Where they are alike they read the same number. -/
theorem TextClasses.AlikeOn.value (h : cls.AlikeOn cls' text) :
    cls.value text = cls'.value text := by
  induction text using List.reverseRecOn with
  | nil => rfl
  | append_singleton rest c ih =>
      rw [TextClasses.value_concat, TextClasses.value_concat, (h c (by simp)).1,
        ih (h.mono (List.subset_append_left rest [c]))]

end Agreement

end Nebularr
