import Mathlib.Tactic.Common

/-!
# Texts as bytes, queries and base64

Texts in UTF-8; lists of named texts as the query of a URL, written byte by byte
with `+` for a space and `%XX` for what is not a letter, a digit or one of
`*-._`, and read back by splitting at `&` and at the first `=`; and bytes in
URL-safe base64, read back by a decoder that passes over what is not of its
alphabet.

What bytes that are not UTF-8 are read as is left open; nothing that was written
has any.
-/

namespace Nebularr

/-! ## UTF-8 -/

section Utf8

/-- `text.encode("utf-8")`. -/
def textBytes (text : String) : List UInt8 := text.toByteArray.data.toList

/-- Bytes as a text; `lossy` is for those that are not UTF-8. -/
def bytesText (lossy : List UInt8 → String) (bytes : List UInt8) : String :=
  (String.fromUTF8? ⟨bytes.toArray⟩).getD (lossy bytes)

/-- A text comes back from its bytes. -/
theorem bytesText_textBytes (lossy : List UInt8 → String) (text : String) :
    bytesText lossy (textBytes text) = text := by
  have hbytes : (⟨(textBytes text).toArray⟩ : ByteArray) = text.toByteArray := rfl
  rw [bytesText, hbytes, String.fromUTF8?, dif_pos text.isValidUTF8]
  rfl

/-- Two texts of the same bytes are the same. -/
theorem textBytes_inj {text text' : String} (h : textBytes text = textBytes text') :
    text = text' := by
  rw [← bytesText_textBytes (fun _ => "") text, h, bytesText_textBytes]

/-- A text has a byte for each character at least. -/
theorem length_le_textBytes (text : String) : text.length ≤ (textBytes text).length := by
  have hbytes : textBytes text = text.toList.flatMap String.utf8EncodeChar := by
    rw [textBytes, ← String.utf8Encode_toList, List.utf8Encode, List.data_toByteArray]
  rw [hbytes, List.length_flatMap, ← String.length_toList]
  induction text.toList with
  | nil => exact Nat.le_refl 0
  | cons c rest ih =>
      have hc := Char.utf8Size_pos c
      rw [List.length_cons, List.map_cons, List.sum_cons, String.length_utf8EncodeChar]
      omega

end Utf8

/-! ## Percent-encoding -/

/-- A digit of an escape, in upper case. -/
def hexDigitByte (n : ℕ) : UInt8 := UInt8.ofNat (if n < 10 then 48 + n else 55 + n)

def hexValue (b : UInt8) : Option ℕ :=
  if 48 ≤ b.toNat ∧ b.toNat ≤ 57 then some (b.toNat - 48)
  else if 65 ≤ b.toNat ∧ b.toNat ≤ 70 then some (b.toNat - 55)
  else if 97 ≤ b.toNat ∧ b.toNat ≤ 102 then some (b.toNat - 87)
  else none

/-- The bytes that are written as they are. -/
def isPlainByte (b : UInt8) : Bool :=
  (48 ≤ b.toNat && b.toNat ≤ 57) || (65 ≤ b.toNat && b.toNat ≤ 90) ||
    (97 ≤ b.toNat && b.toNat ≤ 122) ||
    b == 42 || b == 45 || b == 46 || b == 95

/-- One byte, written. -/
def encodeByte (b : UInt8) : List UInt8 :=
  if b = 32 then [43]
  else if isPlainByte b then [b]
  else [37, hexDigitByte (b.toNat / 16), hexDigitByte (b.toNat % 16)]

def plusToSpace (bytes : List UInt8) : List UInt8 := bytes.map fun b => if b = 43 then 32 else b

/-- Escapes read; what is not an escape stays. -/
def percentDecode : List UInt8 → List UInt8
  | b :: h :: l :: rest =>
      match b == 37, hexValue h, hexValue l with
      | true, some x, some y => UInt8.ofNat (16 * x + y) :: percentDecode rest
      | _, _, _ => b :: percentDecode (h :: l :: rest)
  | short => short

/-- A hex digit is read as what it was written for. -/
theorem hexValue_hexDigitByte : ∀ n < 16, hexValue (hexDigitByte n) = some n := by decide

/-- A hex digit needs no escape. -/
theorem plain_hexDigitByte : ∀ n < 16, isPlainByte (hexDigitByte n) = true := by decide

/-- `+`, `&`, `=` and `%` are not written as they are. -/
theorem ne_of_isPlainByte {b : UInt8} (h : isPlainByte b = true) :
    b ≠ 43 ∧ b ≠ 38 ∧ b ≠ 61 ∧ b ≠ 37 := by
  refine ⟨?_, ?_, ?_, ?_⟩
  all_goals
    rintro rfl
    exact absurd h (by decide)

/-- Any byte but the percent sign stands for itself. -/
theorem percentDecode_cons_of_ne {b : UInt8} (hb : b ≠ 37) (rest : List UInt8) :
    percentDecode (b :: rest) = b :: percentDecode rest := by
  match rest with
  | [] => rfl
  | [_] => rfl
  | h :: l :: rest =>
      rw [percentDecode, beq_false_of_ne hb]

/-- **One byte, read back.** -/
theorem percentDecode_encodeByte (b : UInt8) (rest : List UInt8) :
    percentDecode (plusToSpace (encodeByte b ++ rest)) = b :: percentDecode (plusToSpace rest) := by
  unfold encodeByte
  by_cases hspace : b = 32
  · rw [if_pos hspace, hspace]
    exact percentDecode_cons_of_ne (by decide) _
  · rw [if_neg hspace]
    by_cases hplain : isPlainByte b = true
    · obtain ⟨hplus, -, -, hpercent⟩ := ne_of_isPlainByte hplain
      rw [if_pos hplain, plusToSpace, List.singleton_append, List.map_cons, if_neg hplus]
      exact percentDecode_cons_of_ne hpercent _
    · have hbound : b.toNat < 256 := b.toNat_lt
      have hhigh := ne_of_isPlainByte (plain_hexDigitByte (b.toNat / 16) (by omega))
      have hlow := ne_of_isPlainByte (plain_hexDigitByte (b.toNat % 16) (by omega))
      rw [if_neg hplain]
      simp only [plusToSpace, List.cons_append, List.nil_append, List.map_cons, if_neg hhigh.1,
        if_neg hlow.1, show (if (37 : UInt8) = 43 then 32 else (37 : UInt8)) = 37 from rfl]
      rw [percentDecode, hexValue_hexDigitByte _ (by omega), hexValue_hexDigitByte _ (by omega)]
      simp only [beq_self_eq_true, List.cons.injEq, and_true]
      rw [Nat.div_add_mod, UInt8.ofNat_toNat]

/-- Bytes come back from their escapes. -/
theorem percentDecode_encodeBytes (bytes : List UInt8) :
    percentDecode (plusToSpace (bytes.flatMap encodeByte)) = bytes := by
  induction bytes with
  | nil => rfl
  | cons b rest ih => rw [List.flatMap_cons, percentDecode_encodeByte, ih]

/-- Neither separator is written inside a text. -/
theorem separator_not_mem_encodeByte (b : UInt8) : 38 ∉ encodeByte b ∧ 61 ∉ encodeByte b := by
  unfold encodeByte
  by_cases hspace : b = 32
  · rw [if_pos hspace]
    decide
  · rw [if_neg hspace]
    by_cases hplain : isPlainByte b = true
    · obtain ⟨-, hamp, heq, -⟩ := ne_of_isPlainByte hplain
      rw [if_pos hplain, List.mem_singleton, List.mem_singleton]
      exact ⟨hamp.symm, heq.symm⟩
    · have hbound : b.toNat < 256 := b.toNat_lt
      have hhigh := ne_of_isPlainByte (plain_hexDigitByte (b.toNat / 16) (by omega))
      have hlow := ne_of_isPlainByte (plain_hexDigitByte (b.toNat % 16) (by omega))
      rw [if_neg hplain]
      simp only [List.mem_cons, List.not_mem_nil, or_false, not_or]
      exact ⟨⟨by decide, hhigh.2.1.symm, hlow.2.1.symm⟩, by decide, hhigh.2.2.1.symm,
        hlow.2.2.1.symm⟩

def encodeText (text : String) : List UInt8 := (textBytes text).flatMap encodeByte

def decodeText (lossy : List UInt8 → String) (bytes : List UInt8) : String :=
  bytesText lossy (percentDecode (plusToSpace bytes))

variable {lossy : List UInt8 → String}

/-- A text comes back from its encoding. -/
theorem decodeText_encodeText (text : String) : decodeText lossy (encodeText text) = text := by
  rw [decodeText, encodeText, percentDecode_encodeBytes, bytesText_textBytes]

/-- An encoded text holds neither of the separators. -/
theorem separator_not_mem_encodeText (text : String) :
    38 ∉ encodeText text ∧ 61 ∉ encodeText text := by
  simp only [encodeText, List.mem_flatMap, not_exists, not_and]
  exact ⟨fun b _ => (separator_not_mem_encodeByte b).1, fun b _ =>
    (separator_not_mem_encodeByte b).2⟩

/-! ## Parameters -/

/-- `name=value`. -/
def encodeParam (param : String × String) : List UInt8 :=
  encodeText param.1 ++ 61 :: encodeText param.2

/-- The query of a list of parameters. -/
def serializeParams (params : List (String × String)) : List UInt8 :=
  [38].intercalate (params.map encodeParam)

/-- Split at the first `=`. -/
def decodeParam (lossy : List UInt8 → String) (sequence : List UInt8) : String × String :=
  (decodeText lossy (sequence.takeWhile (· != 61)),
    decodeText lossy ((sequence.dropWhile (· != 61)).drop 1))

/-- The parameters of a query. -/
def parseParams (lossy : List UInt8 → String) (query : List UInt8) : List (String × String) :=
  ((query.splitOn 38).filter (· != [])).map (decodeParam lossy)

/-- A parameter comes back from its encoding. -/
theorem decodeParam_encodeParam (param : String × String) :
    decodeParam lossy (encodeParam param) = param := by
  have hname : ∀ b ∈ encodeText param.1, (b != 61) = true := fun b hb =>
    bne_iff_ne.mpr fun heq => (separator_not_mem_encodeText param.1).2 (heq ▸ hb)
  rw [decodeParam, encodeParam, List.takeWhile_append_of_pos hname,
    List.takeWhile_cons_of_neg (p := fun b : UInt8 => b != 61) (by decide), List.append_nil,
    List.dropWhile_append_of_pos hname,
    List.dropWhile_cons_of_neg (p := fun b : UInt8 => b != 61) (by decide), List.drop_succ_cons,
    List.drop_zero, decodeText_encodeText, decodeText_encodeText]

/-- **Round trip.** -/
theorem parseParams_serializeParams (params : List (String × String)) :
    parseParams lossy (serializeParams params) = params := by
  cases params with
  | nil => rfl
  | cons first rest =>
      have hsplit : (serializeParams (first :: rest)).splitOn 38 =
          (first :: rest).map encodeParam := by
        apply List.splitOn_intercalate
        · intro sequence hmem
          obtain ⟨param, -, rfl⟩ := List.mem_map.mp hmem
          rw [encodeParam, List.mem_append, List.mem_cons]
          have hname := (separator_not_mem_encodeText param.1).1
          have hvalue := (separator_not_mem_encodeText param.2).1
          rintro (h | h | h)
          · exact hname h
          · exact absurd h (by decide)
          · exact hvalue h
        · exact List.cons_ne_nil _ _
      have hkeep : ((first :: rest).map encodeParam).filter (· != []) =
          (first :: rest).map encodeParam := by
        rw [List.filter_eq_self]
        intro sequence hmem
        obtain ⟨param, -, rfl⟩ := List.mem_map.mp hmem
        simp [encodeParam]
      rw [parseParams, hsplit, hkeep, List.map_map]
      exact (List.map_congr_left fun param _ => decodeParam_encodeParam param).trans (List.map_id _)

/-! ## Base64 -/

/-- A digit of the URL-safe alphabet. -/
def base64Char (n : ℕ) : Char :=
  if n < 26 then Char.ofNat (65 + n)
  else if n < 52 then Char.ofNat (71 + n)
  else if n < 62 then Char.ofNat (n - 4)
  else if n = 62 then '-'
  else '_'

/-- The value of a digit; those of the other alphabet count too. -/
def base64Value (c : Char) : Option ℕ :=
  if 'A' ≤ c ∧ c ≤ 'Z' then some (c.toNat - 65)
  else if 'a' ≤ c ∧ c ≤ 'z' then some (c.toNat - 71)
  else if '0' ≤ c ∧ c ≤ '9' then some (c.toNat + 4)
  else if c = '-' ∨ c = '+' then some 62
  else if c = '_' ∨ c = '/' then some 63
  else none

/-- `urlsafe_b64encode`. -/
def base64Encode : List UInt8 → List Char
  | [] => []
  | [a] => [base64Char (a.toNat / 4), base64Char (a.toNat % 4 * 16), '=', '=']
  | [a, b] =>
      [base64Char (a.toNat / 4), base64Char (a.toNat % 4 * 16 + b.toNat / 16),
        base64Char (b.toNat % 16 * 4), '=']
  | a :: b :: c :: rest =>
      base64Char (a.toNat / 4) :: base64Char (a.toNat % 4 * 16 + b.toNat / 16) ::
        base64Char (b.toNat % 16 * 4 + c.toNat / 64) :: base64Char (c.toNat % 64) ::
          base64Encode rest

/-- `urlsafe_b64decode`, from within a group of four: so many digits of it are
read, `left` is what they left over and `pads` the padding since.  Characters
that are no digits are passed over; padding that completes a group ends it. -/
def base64DecodeFrom : ℕ → ℕ → ℕ → List Char → Option (List UInt8)
  | quad, _, _, [] => if quad = 0 then some [] else none
  | quad, left, pads, c :: rest =>
      if c = '=' then
        if quad < 2 then base64DecodeFrom quad left pads rest
        else if 4 ≤ quad + (pads + 1) then some []
        else base64DecodeFrom quad left (pads + 1) rest
      else
        match base64Value c with
        | none => base64DecodeFrom quad left pads rest
        | some v =>
            match quad with
            | 0 => base64DecodeFrom 1 v 0 rest
            | 1 => (base64DecodeFrom 2 (v % 16) 0 rest).map (UInt8.ofNat (left * 4 + v / 16) :: ·)
            | 2 => (base64DecodeFrom 3 (v % 4) 0 rest).map (UInt8.ofNat (left * 16 + v / 4) :: ·)
            | _ => (base64DecodeFrom 0 0 0 rest).map (UInt8.ofNat (left * 64 + v) :: ·)

/-- `urlsafe_b64decode`; `none` is its `binascii.Error`. -/
def base64Decode (text : List Char) : Option (List UInt8) := base64DecodeFrom 0 0 0 text

/-- A character is read as what it was written for. -/
theorem base64Value_base64Char : ∀ n < 64, base64Value (base64Char n) = some n := by decide

/-- A padding sign stands for no value. -/
theorem base64Char_ne_pad : ∀ n < 64, base64Char n ≠ '=' := by decide

/-- One digit, read back. -/
theorem base64DecodeFrom_base64Char {n : ℕ} (hn : n < 64) (quad left pads : ℕ) (rest : List Char) :
    base64DecodeFrom quad left pads (base64Char n :: rest) =
      match quad with
      | 0 => base64DecodeFrom 1 n 0 rest
      | 1 => (base64DecodeFrom 2 (n % 16) 0 rest).map (UInt8.ofNat (left * 4 + n / 16) :: ·)
      | 2 => (base64DecodeFrom 3 (n % 4) 0 rest).map (UInt8.ofNat (left * 16 + n / 4) :: ·)
      | _ => (base64DecodeFrom 0 0 0 rest).map (UInt8.ofNat (left * 64 + n) :: ·) := by
  rw [base64DecodeFrom, if_neg (base64Char_ne_pad n hn), base64Value_base64Char n hn]

/-- A byte comes back from its number. -/
theorem ofNat_eq_of_toNat {n : ℕ} {b : UInt8} (h : n = b.toNat) : UInt8.ofNat n = b := by
  rw [h, UInt8.ofNat_toNat]

/-- **Round trip.** -/
theorem base64Decode_base64Encode (bytes : List UInt8) :
    base64Decode (base64Encode bytes) = some bytes := by
  unfold base64Decode
  fun_induction base64Encode bytes with
  | case1 => rfl
  | case2 a =>
      have ha : a.toNat < 256 := a.toNat_lt
      have hpads : base64DecodeFrom 2 (a.toNat % 4 * 16 % 16) 0 ['=', '='] = some [] := rfl
      rw [base64DecodeFrom_base64Char (by omega)]
      simp only
      rw [base64DecodeFrom_base64Char (by omega)]
      simp only
      rw [hpads, Option.map_some, ofNat_eq_of_toNat (b := a) (by omega)]
  | case3 a b =>
      have ha : a.toNat < 256 := a.toNat_lt
      have hb : b.toNat < 256 := b.toNat_lt
      have hpad : base64DecodeFrom 3 (b.toNat % 16 * 4 % 4) 0 ['='] = some [] := rfl
      rw [base64DecodeFrom_base64Char (by omega)]
      simp only
      rw [base64DecodeFrom_base64Char (by omega)]
      simp only
      rw [base64DecodeFrom_base64Char (by omega)]
      simp only
      rw [hpad, Option.map_some, Option.map_some, ofNat_eq_of_toNat (b := a) (by omega),
        ofNat_eq_of_toNat (b := b) (by omega)]
  | case4 a b c rest ih =>
      have ha : a.toNat < 256 := a.toNat_lt
      have hb : b.toNat < 256 := b.toNat_lt
      have hc : c.toNat < 256 := c.toNat_lt
      rw [base64DecodeFrom_base64Char (by omega)]
      simp only
      rw [base64DecodeFrom_base64Char (by omega)]
      simp only
      rw [base64DecodeFrom_base64Char (by omega)]
      simp only
      rw [base64DecodeFrom_base64Char (by omega)]
      simp only
      rw [ih, Option.map_some, Option.map_some, Option.map_some,
        ofNat_eq_of_toNat (b := a) (by omega),
        ofNat_eq_of_toNat (b := b) (by omega), ofNat_eq_of_toNat (b := c) (by omega)]

/-- Two byte strings with one encoding are the same. -/
theorem base64Encode_inj {bytes bytes' : List UInt8}
    (h : base64Encode bytes = base64Encode bytes') :
    bytes = bytes' := by
  have hdecoded := congrArg base64Decode h
  rw [base64Decode_base64Encode, base64Decode_base64Encode] at hdecoded
  exact Option.some.inj hdecoded

/-- What is written: digits and padding. -/
theorem mem_base64Encode {bytes : List UInt8} {d : Char} (h : d ∈ base64Encode bytes) :
    d = '=' ∨ ∃ n < 64, d = base64Char n := by
  fun_induction base64Encode bytes with
  | case1 => cases h
  | case2 a =>
      have ha : a.toNat < 256 := a.toNat_lt
      simp only [List.mem_cons, List.not_mem_nil, or_false] at h
      rcases h with rfl | rfl | rfl | rfl
      · exact Or.inr ⟨_, by omega, rfl⟩
      · exact Or.inr ⟨_, by omega, rfl⟩
      · exact Or.inl rfl
      · exact Or.inl rfl
  | case3 a b =>
      have ha : a.toNat < 256 := a.toNat_lt
      have hb : b.toNat < 256 := b.toNat_lt
      simp only [List.mem_cons, List.not_mem_nil, or_false] at h
      rcases h with rfl | rfl | rfl | rfl
      · exact Or.inr ⟨_, by omega, rfl⟩
      · exact Or.inr ⟨_, by omega, rfl⟩
      · exact Or.inr ⟨_, by omega, rfl⟩
      · exact Or.inl rfl
  | case4 a b c rest ih =>
      have ha : a.toNat < 256 := a.toNat_lt
      have hb : b.toNat < 256 := b.toNat_lt
      have hc : c.toNat < 256 := c.toNat_lt
      simp only [List.mem_cons] at h
      rcases h with rfl | rfl | rfl | rfl | hrest
      · exact Or.inr ⟨_, by omega, rfl⟩
      · exact Or.inr ⟨_, by omega, rfl⟩
      · exact Or.inr ⟨_, by omega, rfl⟩
      · exact Or.inr ⟨_, by omega, rfl⟩
      · exact ih hrest

/-- The encoding has ASCII characters only, and no dot. -/
theorem ascii_base64Char : ∀ n < 64, (base64Char n).toNat < 128 ∧ base64Char n ≠ '.' := by decide

/-- What is written is ASCII, and has no dot. -/
theorem ascii_of_mem_base64Encode {bytes : List UInt8} {d : Char} (h : d ∈ base64Encode bytes) :
    d.toNat < 128 ∧ d ≠ '.' := by
  obtain rfl | ⟨n, hn, rfl⟩ := mem_base64Encode h
  · decide
  · exact ascii_base64Char n hn

/-- The encoding has a character for each byte at least. -/
theorem length_le_base64Encode (bytes : List UInt8) :
    bytes.length ≤ (base64Encode bytes).length := by
  fun_induction base64Encode bytes with
  | case1 => exact Nat.le_refl 0
  | case2 a => exact Nat.le_add_left 1 3
  | case3 a b => exact Nat.le_add_left 2 2
  | case4 a b c rest ih =>
      simp only [List.length_cons]
      omega

end Nebularr
