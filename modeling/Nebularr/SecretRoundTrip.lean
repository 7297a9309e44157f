import Nebularr.AlertStore
import Nebularr.TextEncodings

/-!
# Secrets at rest

What is stored of a secret, read back: under the same key, or, if it was stored
without one, under whatever key was configured later.  How a stored text starts
tells whether it is encrypted; a secret that was stored as it is may start so too.
-/

namespace Nebularr

/-- The reader has the key of the writer, or the writer had none. -/
inductive KeptOrAdded : SecretKey → SecretKey → Prop
  | kept (fernet : Fernet) : KeptOrAdded (.key fernet) (.key fernet)
  | added (read : SecretKey) : KeptOrAdded .absent read

/-- A token is longer than the text it holds: a version, a time, a vector and a
signature are in it too. -/
def SecretKey.Expands : SecretKey → Prop
  | .key fernet => ∀ token text, fernet.decrypt token = some text → text.length < token.length
  | _ => True

/-- A text is taken for an encrypted one. -/
def LooksEncrypted (text : String) : Prop := encPrefix <+: text.toList

instance (text : String) : Decidable (LooksEncrypted text) := inferInstanceAs (Decidable (_ <+: _))

/-- `decrypt_secret(encrypt_secret(value)) == value.strip()`. -/
def RoundTrips (write read : SecretKey) (value : String) : Prop :=
  (encryptSecret write value).bind (decryptSecret read) = .ok (strip value)

section Reading

variable {key : SecretKey} {value stored : String}

/-- What does not look encrypted is read as it is, under any key. -/
theorem decryptSecret_plain (key : SecretKey) (h : ¬ LooksEncrypted (strip value)) :
    decryptSecret key value = .ok (strip value) := by
  unfold decryptSecret
  by_cases hblank : strip value = ""
  · simp only [hblank, if_true]
  · rw [if_neg hblank]
    exact if_pos h

/-- Without a key, what looks encrypted reads as blank. -/
theorem decryptSecret_absent (h : LooksEncrypted (strip value)) :
    decryptSecret .absent value = .ok "" := by
  unfold decryptSecret
  by_cases hblank : strip value = ""
  · simp only [hblank, if_true]
  · rw [if_neg hblank]
    exact if_neg (not_not.mpr h)

/-- What looks encrypted is not empty. -/
theorem ne_empty_of_looksEncrypted (h : LooksEncrypted value) : value ≠ "" := by
  rintro rfl
  exact absurd h (by decide)

/-- What looks encrypted is read as something shorter, if it is read at all. -/
theorem length_of_decryptSecret {text : String} (hkey : key.Expands)
    (h : LooksEncrypted (strip value))
    (hread : decryptSecret key value = .ok text) : text.length < (strip value).length := by
  have hne := ne_empty_of_looksEncrypted h
  have hpos : 0 < (strip value).length :=
    Nat.pos_of_ne_zero fun hzero => hne (String.length_eq_zero_iff.mp hzero)
  have hlooks : ¬ ¬ encPrefix <+: (strip value).toList := not_not.mpr h
  unfold decryptSecret at hread
  rw [if_neg hne, if_neg hlooks] at hread
  cases key with
  | absent =>
      obtain rfl := Except.ok.inj hread
      exact hpos
  | malformed => cases hread
  | key fernet =>
      obtain rfl := Except.ok.inj hread
      cases hdecrypt :
        fernet.decrypt (String.ofList ((strip value).toList.drop encPrefix.length)) with
      | none => exact hpos
      | some text =>
          have hless := hkey _ _ hdecrypt
          rw [String.length_ofList, List.length_drop, String.length_toList] at hless
          exact Nat.lt_of_lt_of_le hless (Nat.sub_le _ _)

end Reading

section Writing

/-- Without a key a secret is stored as it is, stripped. -/
theorem encryptSecret_absent (value : String) :
    encryptSecret .absent value = .ok (strip value) := by
  unfold encryptSecret
  by_cases hblank : strip value = ""
  · simp only [hblank, if_true]
  · exact if_neg hblank

/-- With a key every secret comes back. -/
theorem roundTrips_key (fernet : Fernet) (value : String) :
    RoundTrips (.key fernet) (.key fernet) value := by
  unfold RoundTrips encryptSecret
  by_cases hblank : strip value = ""
  · have hread : decryptSecret (.key fernet) "" = .ok "" :=
      decryptSecret_plain _ (by decide +kernel)
    rw [if_pos hblank, hblank, Except.bind, hread]
  · rw [if_neg hblank, Except.bind]
    exact decryptSecret_encrypted fernet (strip value)

end Writing

/-! ## A token of the specification -/

/-- The token of the Fernet specification's test vector, which is one of "hello". -/
def helloToken : String :=
  "gAAAAAAdwJ6wAAECAwQFBgcICQoLDA0ODy021cpGVWKZ_eEwCGM4BLLF_5CV9dOPmrhuVUPgJobwOz7JcbmrR64jVmpU4IwqDA=="

/-- The tokens of the test vector; those of other texts hold them as they are. -/
def vectorEncrypt (text : String) : String :=
  if text = "hello" then helloToken else String.ofList (base64Encode (0 :: textBytes text))

def vectorDecrypt (token : String) : Option String :=
  if token = helloToken then some "hello"
  else
    ((base64Decode token.toList).map fun bytes => bytesText (fun _ => "") bytes.tail).filter
      fun text => vectorEncrypt text = token

/-- No token of the plain base64 is that of the test vector. -/
theorem ne_helloToken (text : String) :
    String.ofList (base64Encode (0 :: textBytes text)) ≠ helloToken := by
  intro h
  have hbytes := congrArg (fun token => (base64Decode token.toList).map List.head?) h
  have hversion : (base64Decode helloToken.toList).map List.head? = some (some 0x80) := by
    decide +kernel
  simp only [String.toList_ofList, base64Decode_base64Encode, hversion] at hbytes
  exact absurd (Option.some.inj (Option.some.inj hbytes)) (by decide)

/-- The key of the test vector decrypts what it encrypts. -/
theorem vectorDecrypt_vectorEncrypt (text : String) :
    vectorDecrypt (vectorEncrypt text) = some text := by
  by_cases hhello : text = "hello"
  · rw [vectorEncrypt, if_pos hhello, vectorDecrypt, if_pos rfl, hhello]
  · have htoken : vectorEncrypt text = String.ofList (base64Encode (0 :: textBytes text)) :=
      if_neg hhello
    rw [vectorDecrypt, htoken, if_neg (ne_helloToken text), String.toList_ofList,
      base64Decode_base64Encode,
      Option.map_some, List.tail_cons, bytesText_textBytes, Option.filter_some, htoken]
    simp

/-- Its tokens hold no white space. -/
theorem vectorEncrypt_unspaced (text : String) :
    ∀ c ∈ (vectorEncrypt text).toList, isPySpace c = false := by
  have hdigits : ∀ n < 64, isPySpace (base64Char n) = false := by decide +kernel
  by_cases hhello : text = "hello"
  · have hall : helloToken.toList.all (fun c => !isPySpace c) = true := by decide +kernel
    rw [vectorEncrypt, if_pos hhello]
    simpa only [List.all_eq_true, Bool.not_eq_true'] using hall
  · intro c hc
    rw [vectorEncrypt, if_neg hhello, String.toList_ofList] at hc
    obtain rfl | ⟨n, hn, rfl⟩ := mem_base64Encode hc
    · decide
    · exact hdigits n hn

/-- Its tokens are longer than the text. -/
theorem length_lt_vectorEncrypt (text : String) : text.length < (vectorEncrypt text).length := by
  by_cases hhello : text = "hello"
  · rw [vectorEncrypt, if_pos hhello, hhello]
    decide +kernel
  · have hbytes := length_le_base64Encode (0 :: textBytes text)
    have htext := length_le_textBytes text
    rw [List.length_cons] at hbytes
    rw [vectorEncrypt, if_neg hhello, String.length_ofList]
    omega

/-- What it decrypts is what it encrypted. -/
theorem vectorEncrypt_of_vectorDecrypt {token text : String} (h : vectorDecrypt token = some text) :
    vectorEncrypt text = token := by
  unfold vectorDecrypt at h
  by_cases hhello : token = helloToken
  · rw [if_pos hhello] at h
    obtain rfl := Option.some.inj h
    exact hhello.symm
  · rw [if_neg hhello] at h
    exact of_decide_eq_true (Option.filter_eq_some_iff.mp h).2

/-- The key of the test vector. -/
def vectorKey : Fernet where
  encrypt := vectorEncrypt
  decrypt := vectorDecrypt
  decrypt_encrypt := vectorDecrypt_vectorEncrypt
  tokenUnspaced := vectorEncrypt_unspaced

/-- The key of the test vector makes every text longer. -/
theorem expands_vectorKey : (SecretKey.key vectorKey).Expands := by
  intro token text h
  rw [← vectorEncrypt_of_vectorDecrypt h]
  exact length_lt_vectorEncrypt text

/-! ## What is read back -/

/-- **When a secret is read back**: it was encrypted, or does not look so. -/
theorem roundTrips_iff {write read : SecretKey} (hkeys : KeptOrAdded write read)
    (hread : read.Expands)
    (value : String) :
    RoundTrips write read value ↔
      (∃ fernet, write = .key fernet) ∨ ¬ LooksEncrypted (strip value) := by
  cases hkeys with
  | kept fernet => exact iff_of_true (roundTrips_key fernet value) (Or.inl ⟨fernet, rfl⟩)
  | added =>
      have hstored : RoundTrips .absent read value ↔
          decryptSecret read (strip value) = .ok (strip value) := by
        rw [RoundTrips, encryptSecret_absent, Except.bind]
      rw [hstored]
      constructor
      · intro h
        refine Or.inr fun hlooks => ?_
        have hless := length_of_decryptSecret hread (by rwa [strip_strip]) h
        rw [strip_strip] at hless
        exact Nat.lt_irrefl _ hless
      · intro h
        obtain ⟨fernet, hkey⟩ | hplain := h
        · cases hkey
        · rw [decryptSecret_plain read (by rwa [strip_strip]), strip_strip]

/-- With a key, without, and a stored text that looks encrypted. -/
theorem roundTrips_hello :
    RoundTrips (.key vectorKey) (.key vectorKey) " hello " ∧
      RoundTrips .absent (.key vectorKey) "hello" ∧
      ¬ RoundTrips .absent (.key vectorKey) ("enc::" ++ helloToken) := by
  refine ⟨?_, ?_, fun h => ?_⟩
  · exact (roundTrips_iff (.kept vectorKey) expands_vectorKey " hello ").mpr
      (Or.inl ⟨vectorKey, rfl⟩)
  · exact (roundTrips_iff (.added _) expands_vectorKey "hello").mpr (Or.inr (by decide +kernel))
  · obtain ⟨fernet, hkey⟩ | hplain := (roundTrips_iff (.added _) expands_vectorKey _).mp h
    · cases hkey
    · exact hplain (by decide +kernel)

/-- A secret that was stored without a key reads as blank. -/
theorem not_roundTrips_tagged :
    KeptOrAdded .absent .absent ∧ ¬ RoundTrips .absent .absent "enc::backup-station" := by
  refine ⟨.added .absent, fun h => ?_⟩
  have hread : decryptSecret .absent (strip "enc::backup-station") = .ok "" :=
    decryptSecret_absent (by decide +kernel)
  rw [RoundTrips, encryptSecret_absent, Except.bind, hread] at h
  exact absurd (Except.ok.inj h) (by decide +kernel)

/-! ## Saved again -/

/-- A stored secret, read and saved under the key there is now. -/
def resave (key : SecretKey) (stored : String) : Except ApiError String :=
  (decryptSecret key stored).bind (encryptSecret key)

/-- One save after the other, each under the key of its time. -/
def resaves : List SecretKey → String → Except ApiError String
  | [], stored => .ok stored
  | key :: keys, stored => (resave key stored).bind (resaves keys)

/-- What was stored under a key reads as a text from then on. -/
structure Holds (key : SecretKey) (stored text : String) : Prop where
  stripped : strip text = text
  reads : ∀ read, KeptOrAdded key read → decryptSecret read stored = .ok text

section Resave

variable {key next : SecretKey} {stored text : String}

/-- Saved without a key, it does not look encrypted. -/
theorem Holds.plain (h : Holds .absent stored text) : ¬ LooksEncrypted text := by
  have hread := h.reads .absent (.added .absent)
  by_cases hlooks : LooksEncrypted (strip stored)
  · rw [decryptSecret_absent hlooks] at hread
    obtain rfl := Except.ok.inj hread
    decide
  · rw [decryptSecret_plain .absent hlooks] at hread
    obtain rfl := Except.ok.inj hread
    exact hlooks

/-- What is encrypted, or need not be, reads as itself. -/
theorem holds_of_encryptSecret (hkey : key ≠ .malformed) (hclean : strip text = text)
    (hplain : key = .absent → ¬ LooksEncrypted text) :
    ∃ stored, encryptSecret key text = .ok stored ∧ Holds key stored text := by
  cases key with
  | malformed => exact absurd rfl hkey
  | absent =>
      refine ⟨text, by rw [encryptSecret_absent, hclean], hclean, fun read _ => ?_⟩
      rw [decryptSecret_plain read (by rw [hclean]; exact hplain rfl), hclean]
  | key fernet =>
      have hround := roundTrips_key fernet text
      unfold RoundTrips at hround
      obtain ⟨stored, hstored, hread⟩ := exists_of_bind_ok hround
      refine ⟨stored, hstored, hclean, fun read hkept => ?_⟩
      cases hkept with
      | kept => rw [hread, hclean]

/-- **A save after the key is kept or added** holds the same text. -/
theorem Holds.resave (h : Holds key stored text) (hnext : KeptOrAdded key next)
    (hkey : next ≠ .malformed) :
    ∃ stored', Nebularr.resave next stored = .ok stored' ∧ Holds next stored' text := by
  have hplain : next = .absent → ¬ LooksEncrypted text := by
    rintro rfl
    cases hnext with
    | added => exact h.plain
  obtain ⟨stored', hstored', hholds⟩ := holds_of_encryptSecret hkey h.stripped hplain
  exact ⟨stored', by rw [Nebularr.resave, h.reads next hnext, Except.bind, hstored'], hholds⟩

/-- **A secret outlives its saves**: however often it is read and saved again,
without a key and then under the one that was configured. -/
theorem Holds.resaves {keys : List SecretKey} (h : Holds key stored text)
    (hkeys : (key :: keys).IsChain KeptOrAdded) (hvalid : ∀ k ∈ keys, k ≠ .malformed) :
    ∃ stored', Nebularr.resaves keys stored = .ok stored' ∧
      Holds (keys.getLastD key) stored' text := by
  induction keys generalizing key stored with
  | nil => exact ⟨stored, rfl, h⟩
  | cons next keys ih =>
      rw [List.isChain_cons_cons] at hkeys
      rw [List.forall_mem_cons] at hvalid
      obtain ⟨stored', hstored', hholds⟩ := h.resave hkeys.1 hvalid.1
      obtain ⟨last, hlast, hlastHolds⟩ := ih hholds hkeys.2 hvalid.2
      refine ⟨last, ?_, ?_⟩
      · rw [Nebularr.resaves, hstored', Except.bind, hlast]
      · rw [List.getLastD_cons]
        exact hlastHolds

end Resave

end Nebularr
