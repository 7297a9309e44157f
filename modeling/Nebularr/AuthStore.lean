import Mathlib.Tactic.SplitIfs
import Nebularr.AlertStore
import Nebularr.KeyedTable
import Nebularr.SessionTokens

/-!
# The stored authentication state

The rows of `app.settings` that decide who gets in, as `auth_store` reads and
writes them, and the three requests that change them: the configuration of
authentication, the setup wizard, and the data reset, which clears the table and
puts back what it means to keep.

The digests are parameters.
-/

namespace Nebularr

/-! ## Settings -/

/-- `app.settings`. -/
abbrev SettingsTable := KeyedTable String String

/-- `read_setting`. -/
def readSetting (settings : SettingsTable) (key : String) : String :=
  ((settings.row key).map strip).getD ""

/-- `_write_setting`. -/
def writeSetting (key value : String) (settings : SettingsTable) : SettingsTable :=
  settings.upsert key value fun _ => value

section Settings

variable {settings : SettingsTable} {key key' value : String}

/-- A setting reads back stripped. -/
@[simp] theorem readSetting_writeSetting_self :
    readSetting (writeSetting key value settings) key = strip value := by
  rw [readSetting, writeSetting, KeyedTable.row_upsert_self]
  cases settings.row key <;> rfl

/-- Writing a setting leaves the others. -/
theorem readSetting_writeSetting_of_ne (h : key' ≠ key) :
    readSetting (writeSetting key value settings) key' = readSetting settings key' := by
  rw [readSetting, writeSetting, KeyedTable.row_upsert_of_ne h, readSetting]

/-- The row of a setting after a write. -/
theorem row_writeSetting :
    (writeSetting key value settings).row key' = if key' = key then some value
      else settings.row key' := by
  rw [writeSetting, KeyedTable.row_upsert]
  cases settings.row key <;> rfl

end Settings

/-- `AUTH_ENABLED_KEY`, and so on. -/
def authEnabledKey : String := "app.auth_enabled"
def authPasswordHashKey : String := "app.auth_password_hash"
def authApiTokenHashKey : String := "app.auth_api_token_hash"
def authSessionEpochKey : String := "app.auth_session_epoch"

/-- `AuthConfig`. -/
structure AuthConfig where
  enabled : Bool
  passwordHash : String
  apiTokenHash : String
  sessionEpoch : Int
deriving DecidableEq, Repr

/-- `AuthConfig.password_set`. -/
def AuthConfig.passwordSet (config : AuthConfig) : Bool := decide (config.passwordHash ≠ "")

/-- `_parse_epoch`; too many digits are a `ValueError` as well. -/
def parseEpoch (raw : String) : Int :=
  if (raw.toList.filter fun c => (decimalValue c).isSome).length ≤ maxStrDigits then
    (pyInt raw.toList).getD 0
  else 0

/-- `read_auth_config`. -/
def readAuthConfig (settings : SettingsTable) : AuthConfig where
  enabled := (readSetting settings authEnabledKey).toLower == "true"
  passwordHash := readSetting settings authPasswordHashKey
  apiTokenHash := readSetting settings authApiTokenHashKey
  sessionEpoch := parseEpoch (readSetting settings authSessionEpochKey)

/-- `store_auth_enabled`. -/
def storeAuthEnabled (enabled : Bool) (settings : SettingsTable) : SettingsTable :=
  writeSetting authEnabledKey (if enabled then "true" else "false") settings

/-- `bump_session_epoch`; an integer of too many digits has no text. -/
def bumpSessionEpoch (settings : SettingsTable) : Except ApiError SettingsTable :=
  let newEpoch := parseEpoch (readSetting settings authSessionEpochKey) + 1
  if Writable10 newEpoch then .ok (writeSetting authSessionEpochKey (toString newEpoch) settings)
  else .error (.raised "ValueError")

/-! ## Passwords and tokens -/

/-- `hashlib.scrypt` with the parameters of the module, of a password and a salt,
and `hashlib.sha256`. -/
structure AuthDigests where
  scrypt : List UInt8 → List UInt8 → List UInt8
  sha256 : List UInt8 → List UInt8

namespace AuthDigests

variable (digests : AuthDigests)

/-- The scheme of a stored hash. -/
def scryptScheme : List Char := ['s', 'c', 'r', 'y', 'p', 't']

/-- `hash_password`, with the salt it draws. -/
def hashPassword (salt : List UInt8) (password : String) : String :=
  String.ofList (scryptScheme ++ '$' :: (base64Encode salt ++ '$' ::
    base64Encode (digests.scrypt (textBytes password) salt)))

/-- `text.split("$", 2)`, where it comes to three parts. -/
def splitDollars (text : List Char) : Option (List Char × List Char × List Char) :=
  match text.dropWhile (· != '$') with
  | [] => none
  | _ :: rest =>
      match rest.dropWhile (· != '$') with
      | [] => none
      | _ :: last => some (text.takeWhile (· != '$'), rest.takeWhile (· != '$'), last)

/-- `verify_password`. -/
def verifyPassword (password storedHash : String) : Bool :=
  match splitDollars storedHash.toList with
  | none => false
  | some (scheme, salt64, digest64) =>
      if scheme ≠ scryptScheme then false
      else
        match base64Decode salt64, base64Decode digest64 with
        | some salt, some expected => digests.scrypt (textBytes password) salt == expected
        | _, _ => false

/-- `hash_secret`. -/
def hashSecret (value : String) : String :=
  let normalized := strip value
  if normalized = "" then ""
    else String.ofList (base64Encode (digests.sha256 (textBytes normalized)))

end AuthDigests

/-! ## The requests that change it -/

/-- The body of `PUT /api/auth/config`, as the handler decodes it. -/
structure AuthUpdate where
  password : String
  enabled : Option Bool
  rotateApiToken : Bool
  revokeApiToken : Bool

section Requests

variable (digests : AuthDigests)

/-- A new password, and with it a new epoch. -/
def storeNewPassword (salt : List UInt8) (password : String) (settings : SettingsTable) :
    Except ApiError SettingsTable :=
  if password ≠ "" then
    bumpSessionEpoch
      (writeSetting authPasswordHashKey (digests.hashPassword salt password) settings)
  else .ok settings

/-- Authentication on or off, or left as it is. -/
def storeWantedEnabled (passwordAvailable : Bool) (enabled : Option Bool)
    (settings : SettingsTable) :
    Except ApiError SettingsTable :=
  match enabled with
  | none => .ok settings
  | some wantEnabled =>
      if wantEnabled && !passwordAvailable then
        .error (.http 400 "set a password before enabling authentication")
      else .ok (storeAuthEnabled wantEnabled settings)

/-- The transaction of `auth_update_config`; `config` was read before the
password was hashed, and `salt` and `apiToken` are drawn. -/
def authUpdateConfig (salt : List UInt8) (apiToken : String) (config : AuthConfig)
    (request : AuthUpdate)
    (settings : SettingsTable) : Except ApiError SettingsTable :=
  if request.password ≠ "" ∧ request.password.length < 8 then
    .error (.http 400 "password must be at least 8 characters")
  else do
    let withPassword ← storeNewPassword digests salt request.password settings
    let withEnabled ←
      storeWantedEnabled (request.password ≠ "" || config.passwordSet) request.enabled withPassword
    .ok <|
      if request.rotateApiToken then
        writeSetting authApiTokenHashKey (digests.hashSecret apiToken) withEnabled
      else if request.revokeApiToken then writeSetting authApiTokenHashKey "" withEnabled
      else withEnabled

/-- What `setup_wizard` writes for an admin password; it leaves the epoch. -/
def setupWizardPassword (salt : List UInt8) (adminPassword : String) (settings : SettingsTable) :
    Except ApiError SettingsTable :=
  if adminPassword = "" then .ok settings
  else if adminPassword.length < 8 then
    .error (.http 400 "admin password must be at least 8 characters")
  else
    .ok (storeAuthEnabled true
      (writeSetting authPasswordHashKey (digests.hashPassword salt adminPassword) settings))

end Requests

/-- What a pattern of `like … escape '\'` asks for. -/
inductive LikeToken
  | char (c : Char)
  | one
  | many

/-- The tokens of a pattern. -/
def likeTokens : List Char → List LikeToken
  | [] => []
  | '\\' :: c :: rest => .char c :: likeTokens rest
  | '%' :: rest => .many :: likeTokens rest
  | '_' :: rest => .one :: likeTokens rest
  | c :: rest => .char c :: likeTokens rest

/-- Whether the tokens match a whole text. -/
def likeMatches : List LikeToken → List Char → Bool
  | [], text => text.isEmpty
  | .char c :: tokens, d :: rest => d == c && likeMatches tokens rest
  | .one :: tokens, _ :: rest => likeMatches tokens rest
  | .many :: tokens, text => text.tails.any (likeMatches tokens)
  | _, [] => false

/-- `RESET_KEEP_SETTING_PATTERNS`. -/
def resetKeepSettingPatterns : List String := ["app.auth\\_%", "app.alert\\_%", "mal.%"]

/-- `RESET_KEEP_SETTING_KEYS`. -/
def resetKeepSettingKeys : List String :=
  ["app.webhook_secret_hash", "app.setup_completed", "app.log_level", "app.retention_policy_json",
    "app.queue_policy_json", "app.ui_saved_views_json", "app.metrics_public"]

/-- Whether a key is on the list, or like one of the patterns. -/
def survivesReset (key : String) : Bool :=
  resetKeepSettingKeys.contains key ||
    resetKeepSettingPatterns.any fun pattern => likeMatches (likeTokens pattern.toList) key.toList

/-- `reset_data`, as far as `app.settings` goes. -/
def resetData (settings : SettingsTable) : SettingsTable :=
  (settings.selectWhere fun key _ => survivesReset key).foldl
    (fun cleared row => writeSetting row.1 row.2 cleared) KeyedTable.empty

/-! ## Integers, written and read back -/

/-- The digits of ASCII have their values. -/
theorem decimalValue_of_isDigit {c : Char} (h : c.isDigit = true) :
    decimalValue c = some (c.toNat - 48) := by
  have hrange : 48 ≤ c.toNat ∧ c.toNat ≤ 57 := by
    rw [Char.isDigit, Bool.and_eq_true, decide_eq_true_iff, decide_eq_true_iff] at h
    exact h
  have hfirst :
      decimalZeros.find? (fun first => decide (first ≤ c.toNat) && decide (c.toNat ≤ first + 9)) =
      some 48 := by
    refine List.find?_cons_of_pos ?_
    rw [Bool.and_eq_true, decide_eq_true_iff, decide_eq_true_iff]
    exact ⟨hrange.1, hrange.2⟩
  rw [decimalValue, hfirst]
  rfl

/-- A decimal is read as what it says. -/
theorem decimalsValue_eq_ofDigitChars {digits : List Char} (h : ∀ c ∈ digits, c.isDigit = true) :
    decimalsValue digits = (Nat.ofDigitChars 10 digits 0 : ℕ) := by
  have hfold : ∀ start : ℕ,
      digits.foldl (fun (n : Int) c => n * 10 + ((decimalValue c).getD 0 : ℕ)) (start : Int) =
        (Nat.ofDigitChars 10 digits start : ℕ) := by
    induction digits with
    | nil => exact fun _ => by simp
    | cons c rest ih =>
        intro start
        have hstep : (start : Int) * 10 + (((decimalValue c).getD 0 : ℕ) : Int) =
            ((10 * start + (c.toNat - '0'.toNat) : ℕ) : Int) := by
          rw [decimalValue_of_isDigit (h c List.mem_cons_self), Option.getD_some, Int.natCast_add,
            Int.natCast_mul, Int.mul_comm]
          rfl
        rw [List.foldl_cons, hstep, ih fun d hd =>
          h d (List.mem_cons_of_mem c hd), Nat.ofDigitChars_cons]
  exact hfold 0

/-- `int` reads a natural number as it is written. -/
theorem pyDigits_toDigits (k : ℕ) : pyDigits (Nat.toDigits 10 k) = some (k : Int) := by
  have hdigits : ∀ c ∈ Nat.toDigits 10 k, c.isDigit = true := fun _ => isDigit_of_mem_digits
  have hsplit : (Nat.toDigits 10 k).splitOn '_' = [Nat.toDigits 10 k] :=
    List.splitOn_eq_singleton Nat.underscore_not_in_toDigits
  have hne : Nat.toDigits 10 k ≠ [] := by
    rw [Nat.toDigits_eq_if (by decide)]
    split <;> simp
  have hall : (Nat.toDigits 10 k).all (fun c => (decimalValue c).isSome) = true := by
    rw [List.all_eq_true]
    intro c hc
    rw [decimalValue_of_isDigit (hdigits c hc)]
    rfl
  rw [pyDigits, hsplit]
  simp only [List.all_cons, List.all_nil, List.isEmpty_eq_false_iff.mpr hne, hall, Bool.not_false,
    Bool.and_self, if_true, List.flatten_singleton, decimalsValue_eq_ofDigitChars hdigits,
    Nat.ofDigitChars_ten_toDigits]

/-- A digit is no white space. -/
theorem isPySpace_of_isDigit {c : Char} (h : c.isDigit = true) : isPySpace c = false :=
  isPySpace_of_isSome_decimalValue (by rw [decimalValue_of_isDigit h]; rfl)

/-- A text of an integer has no white space. -/
theorem isPySpace_of_mem_toString {n : Int} {c : Char} (h : c ∈ (toString n).toList) :
    isPySpace c = false := by
  obtain ⟨k, _, htext⟩ | ⟨k, _, htext⟩ := toString_int_cases n
  · rw [htext] at h
    exact isPySpace_of_isDigit (isDigit_of_mem_digits h)
  · rw [htext] at h
    rcases List.mem_cons.mp h with rfl | hc
    · decide
    · exact isPySpace_of_isDigit (isDigit_of_mem_digits hc)

/-- `int` reads an integer as it is written. -/
theorem pyInt_toString (n : Int) : pyInt (toString n).toList = some n := by
  have hstrip : stripBy isIntSpace (toString n).toList = (toString n).toList := by
    have hspace : ∀ c ∈ (toString n).toList, isIntSpace c = false := fun c hc => by
      rw [isIntSpace, isPySpace_of_mem_toString hc, Bool.false_and]
    rw [stripBy_eq_self_iff]
    exact ⟨fun c hc => hspace c (List.mem_of_head? hc), fun c hc =>
      hspace c (List.mem_of_getLast? hc)⟩
  unfold pyInt
  rw [hstrip]
  obtain ⟨k, rfl, htext⟩ | ⟨k, rfl, htext⟩ := toString_int_cases n
  · rw [htext]
    have hsign : ∀ c rest, Nat.toDigits 10 k = c :: rest → c ≠ '-' ∧ c ≠ '+' := by
      intro c rest heq
      have hdigit := isDigit_of_mem_digits (heq ▸ List.mem_cons_self : c ∈ Nat.toDigits 10 k)
      constructor <;> rintro rfl <;> cases hdigit
    split
    · exact absurd rfl (hsign _ _ ‹_›).1
    · exact absurd rfl (hsign _ _ ‹_›).2
    · exact pyDigits_toDigits k
  · rw [htext]
    simp only [pyDigits_toDigits, Option.map_some]

/-! ## What is read back -/

/-- An integer is written without white space around it. -/
theorem strip_toString (n : Int) : strip (toString n) = toString n := by
  rw [strip_eq_self_iff]
  exact ⟨fun c hc => isPySpace_of_mem_toString (List.mem_of_head? hc),
    fun c hc => isPySpace_of_mem_toString (List.mem_of_getLast? hc)⟩

/-- An epoch within the limit of digits reads back. -/
theorem parseEpoch_toString {n : Int} (h : Writable10 n) : parseEpoch (toString n) = n := by
  have hlength : ((toString n).toList.filter fun c => (decimalValue c).isSome).length ≤
      maxStrDigits := by
    obtain ⟨k, rfl, htext⟩ | ⟨k, rfl, htext⟩ := toString_int_cases n
    · rw [htext]
      exact (List.length_filter_le _ _).trans h
    · rw [htext, List.filter_cons_of_neg (by decide)]
      refine (List.length_filter_le _ _).trans ?_
      rwa [Writable10, Int.natAbs_neg] at h
  rw [parseEpoch, if_pos hlength, pyInt_toString, Option.getD_some]

/-! ## What the requests leave -/

section Effects

variable {digests : AuthDigests} {settings settings' : SettingsTable}

/-- Digests and tokens are url-safe base64, which nothing strips. -/
theorem isPySpace_of_mem_base64Encode {bytes : List UInt8} {c : Char} (h : c ∈ base64Encode bytes) :
    isPySpace c = false ∧ c ≠ '$' := by
  have hdigits : ∀ n < 64, isPySpace (base64Char n) = false ∧ base64Char n ≠ '$' := by
    decide +kernel
  obtain rfl | ⟨n, hn, rfl⟩ := mem_base64Encode h
  · decide
  · exact hdigits n hn

/-- A password hash has no white space around it. -/
theorem strip_hashPassword (salt : List UInt8) (password : String) :
    strip (digests.hashPassword salt password) = digests.hashPassword salt password := by
  have hunspaced : ∀ c ∈ (digests.hashPassword salt password).toList, isPySpace c = false := by
    intro c hc
    rw [AuthDigests.hashPassword, String.toList_ofList, List.mem_append, List.mem_cons,
      List.mem_append,
      List.mem_cons] at hc
    rcases hc with hscheme | rfl | hsalt | rfl | hdigest
    · have hall : (AuthDigests.scryptScheme.all fun d => !isPySpace d) = true := by decide
      exact Bool.not_eq_true' _ |>.mp (List.all_eq_true.mp hall c hscheme)
    · decide
    · exact (isPySpace_of_mem_base64Encode hsalt).1
    · decide
    · exact (isPySpace_of_mem_base64Encode hdigest).1
  rw [strip_eq_self_iff]
  exact ⟨fun c hc => hunspaced c (List.mem_of_head? hc), fun c hc =>
    hunspaced c (List.mem_of_getLast? hc)⟩

/-- Storing the switch changes the switch. -/
theorem readAuthConfig_storeAuthEnabled (enabled : Bool) :
    readAuthConfig (storeAuthEnabled enabled settings) =
      { readAuthConfig settings with enabled := enabled } := by
  have hword : ((strip (if enabled then "true" else "false")).toLower == "true") = enabled := by
    cases enabled <;> decide +kernel
  unfold readAuthConfig storeAuthEnabled
  rw [readSetting_writeSetting_self, readSetting_writeSetting_of_ne (by decide),
    readSetting_writeSetting_of_ne (by decide), readSetting_writeSetting_of_ne (by decide), hword]

/-- Storing a password hash changes that hash. -/
theorem readAuthConfig_storePasswordHash {hash : String} (h : strip hash = hash) :
    readAuthConfig (writeSetting authPasswordHashKey hash settings) =
      { readAuthConfig settings with passwordHash := hash } := by
  unfold readAuthConfig
  rw [readSetting_writeSetting_self, readSetting_writeSetting_of_ne (by decide),
    readSetting_writeSetting_of_ne (by decide), readSetting_writeSetting_of_ne (by decide), h]

/-- Storing a token hash changes that hash. -/
theorem readAuthConfig_storeApiTokenHash (hash : String) :
    readAuthConfig (writeSetting authApiTokenHashKey hash settings) =
      { readAuthConfig settings with apiTokenHash := strip hash } := by
  unfold readAuthConfig
  rw [readSetting_writeSetting_self, readSetting_writeSetting_of_ne (by decide),
    readSetting_writeSetting_of_ne (by decide), readSetting_writeSetting_of_ne (by decide)]

/-- A bump makes the epoch one more. -/
theorem readAuthConfig_bumpSessionEpoch (h : bumpSessionEpoch settings = .ok settings') :
    readAuthConfig settings' =
      { readAuthConfig settings with
        sessionEpoch := (readAuthConfig settings).sessionEpoch + 1 } := by
  unfold bumpSessionEpoch at h
  simp only [] at h
  split at h
  · rename_i hwritable
    obtain rfl := Except.ok.inj h
    unfold readAuthConfig
    rw [readSetting_writeSetting_self, readSetting_writeSetting_of_ne (by decide),
      readSetting_writeSetting_of_ne (by decide), readSetting_writeSetting_of_ne (by decide),
      strip_toString, parseEpoch_toString hwritable]
  · cases h

/-- A password is set if its hash is stored. -/
theorem passwordSet_iff {config : AuthConfig} :
    config.passwordSet = true ↔ config.passwordHash ≠ "" :=
  decide_eq_true_iff

/-- A new password changes its hash and the epoch. -/
theorem readAuthConfig_storeNewPassword {salt : List UInt8} {password : String}
    (h : storeNewPassword digests salt password settings = .ok settings') :
    readAuthConfig settings' =
      { readAuthConfig settings with
        passwordHash :=
          if password ≠ "" then digests.hashPassword salt password
          else (readAuthConfig settings).passwordHash
        sessionEpoch :=
          if password ≠ "" then (readAuthConfig settings).sessionEpoch + 1
          else (readAuthConfig settings).sessionEpoch } := by
  unfold storeNewPassword at h
  split at h
  · rename_i hset
    rw [readAuthConfig_bumpSessionEpoch h,
      readAuthConfig_storePasswordHash (strip_hashPassword salt password), if_pos hset, if_pos hset]
  · rename_i hunset
    obtain rfl := Except.ok.inj h
    rw [if_neg hunset, if_neg hunset]

/-- The switch is set as wanted, and on only with a password. -/
theorem readAuthConfig_storeWantedEnabled {available : Bool} {enabled : Option Bool}
    (h : storeWantedEnabled available enabled settings = .ok settings') :
    (enabled = some true → available = true) ∧
      readAuthConfig settings' =
        { readAuthConfig settings
          with enabled := enabled.getD (readAuthConfig settings).enabled } := by
  unfold storeWantedEnabled at h
  cases enabled with
  | none =>
      obtain rfl := Except.ok.inj h
      exact ⟨fun hsome => (nomatch hsome), rfl⟩
  | some want =>
      simp only [] at h
      split at h
      · cases h
      · rename_i hallowed
        obtain rfl := Except.ok.inj h
        refine ⟨fun hsome => ?_, readAuthConfig_storeAuthEnabled want⟩
        obtain rfl := Option.some.inj hsome
        simpa using hallowed

/-- **A configuration request.**  `config` is what the handler read before. -/
theorem authUpdateConfig_spec {salt : List UInt8} {apiToken : String} {config : AuthConfig}
    {request : AuthUpdate}
    (h : authUpdateConfig digests salt apiToken config request settings = .ok settings') :
    (request.enabled = some true → request.password ≠ "" ∨ config.passwordSet = true) ∧
      readAuthConfig settings' =
        { enabled := request.enabled.getD (readAuthConfig settings).enabled
          passwordHash :=
            if request.password ≠ "" then digests.hashPassword salt request.password
            else (readAuthConfig settings).passwordHash
          apiTokenHash :=
            if request.rotateApiToken then strip (digests.hashSecret apiToken)
            else if request.revokeApiToken then "" else (readAuthConfig settings).apiTokenHash
          sessionEpoch :=
            if request.password ≠ "" then (readAuthConfig settings).sessionEpoch + 1
            else (readAuthConfig settings).sessionEpoch } := by
  unfold authUpdateConfig at h
  split at h
  · cases h
  obtain ⟨withPassword, hpassword, h⟩ := exists_of_bind_ok h
  obtain ⟨withEnabled, henabled, h⟩ := exists_of_bind_ok h
  obtain rfl := Except.ok.inj h
  have hfirst := readAuthConfig_storeNewPassword hpassword
  obtain ⟨hallowed, hsecond⟩ := readAuthConfig_storeWantedEnabled henabled
  refine ⟨fun hwant => by simpa using hallowed hwant, ?_⟩
  have hclear : strip "" = "" := by decide
  split
  · rw [readAuthConfig_storeApiTokenHash, hsecond, hfirst]
  · split
    · rw [readAuthConfig_storeApiTokenHash, hsecond, hfirst, hclear]
    · rw [hsecond, hfirst]

/-- No update takes the epoch back. -/
theorem sessionEpoch_le_of_update {salt : List UInt8} {apiToken : String} {config : AuthConfig}
    {request : AuthUpdate}
    (h : authUpdateConfig digests salt apiToken config request settings = .ok settings') :
    (readAuthConfig settings).sessionEpoch ≤ (readAuthConfig settings').sessionEpoch := by
  rw [(authUpdateConfig_spec h).2]
  split <;> simp

/-- Nor does the wizard, which writes no epoch. -/
theorem sessionEpoch_le_of_wizard {salt : List UInt8} {adminPassword : String}
    (h : setupWizardPassword digests salt adminPassword settings = .ok settings') :
    (readAuthConfig settings).sessionEpoch ≤ (readAuthConfig settings').sessionEpoch := by
  unfold setupWizardPassword at h
  split at h
  · obtain rfl := Except.ok.inj h
    exact le_rfl
  · split at h
    · cases h
    · obtain rfl := Except.ok.inj h
      rw [readAuthConfig_storeAuthEnabled,
        readAuthConfig_storePasswordHash (strip_hashPassword salt adminPassword)]

/-- Writing rows back, in any order. -/
theorem row_foldl_writeSetting
    {rows : List (String × String)} {table : SettingsTable} {key value : String}
    (h : (rows.map Prod.fst).Nodup) :
    (rows.foldl (fun cleared row => writeSetting row.1 row.2 cleared) table).row key = some value ↔
      (key, value) ∈ rows ∨ key ∉ rows.map Prod.fst ∧ table.row key = some value := by
  induction rows generalizing table with
  | nil => simp
  | cons row rest ih =>
      obtain ⟨first, stored⟩ := row
      rw [List.map_cons, List.nodup_cons] at h
      rw [List.foldl_cons, ih h.2, row_writeSetting, List.map_cons, List.mem_cons, List.mem_cons]
      by_cases hkey : key = first
      · subst hkey
        have hnot : (key, value) ∉ rest := fun hmem => h.1 (List.mem_map.mpr ⟨_, hmem, rfl⟩)
        simp [hnot, h.1, eq_comm]
      · simp [hkey]

/-- **A data reset keeps what it means to keep**, and nothing else. -/
theorem row_resetData (key : String) :
    (resetData settings).row key = if survivesReset key then settings.row key else none := by
  apply Option.ext
  intro value
  rw [resetData, row_foldl_writeSetting (KeyedTable.nodup_selectWhere _ _), KeyedTable.row_empty,
    KeyedTable.mem_selectWhere_iff]
  split <;> simp_all

/-- So it does not unlock anything. -/
theorem readAuthConfig_resetData :
    readAuthConfig (resetData settings) = readAuthConfig settings := by
  have hkept : ∀ key ∈
      [authEnabledKey, authPasswordHashKey, authApiTokenHashKey, authSessionEpochKey],
      survivesReset key = true := by
    decide +kernel
  have hread : ∀ key ∈
      [authEnabledKey, authPasswordHashKey, authApiTokenHashKey, authSessionEpochKey],
      readSetting (resetData settings) key = readSetting settings key := by
    intro key hkey
    rw [readSetting, row_resetData, if_pos (hkept key hkey), readSetting]
  unfold readAuthConfig
  rw [hread authEnabledKey (by simp), hread authPasswordHashKey (by simp),
    hread authApiTokenHashKey (by simp), hread authSessionEpochKey (by simp)]

/-! ## Passwords, checked -/

/-- A hash splits into its scheme, its salt and its digest. -/
theorem splitDollars_hashPassword (salt : List UInt8) (password : String) :
    AuthDigests.splitDollars (digests.hashPassword salt password).toList =
      some (AuthDigests.scryptScheme, base64Encode salt,
        base64Encode (digests.scrypt (textBytes password) salt)) := by
  have hscheme : ∀ c ∈ AuthDigests.scryptScheme, (c != '$') = true := by
    have hall : (AuthDigests.scryptScheme.all fun c => c != '$') = true := by decide
    exact List.all_eq_true.mp hall
  have hsalt : ∀ c ∈ base64Encode salt, (c != '$') = true := fun c hc =>
    bne_iff_ne.mpr (isPySpace_of_mem_base64Encode hc).2
  have hstop : ∀ (rest : List Char) (a : Char), ('$' :: rest).head? = some a →
      (a != '$') = false := by
    intro rest a ha
    obtain rfl := Option.some.inj ha
    decide
  obtain ⟨htake, hdrop⟩ := span_run hscheme (hstop (base64Encode salt ++ '$' ::
    base64Encode (digests.scrypt (textBytes password) salt)))
  obtain ⟨htake', hdrop'⟩ :=
    span_run hsalt (hstop (base64Encode (digests.scrypt (textBytes password) salt)))
  rw [AuthDigests.hashPassword, String.toList_ofList, AuthDigests.splitDollars, hdrop]
  simp only [hdrop', htake, htake']

/-- **A stored password is checked** against the one that was stored. -/
theorem verifyPassword_hashPassword (salt : List UInt8) (password given : String) :
    digests.verifyPassword given (digests.hashPassword salt password) =
      (digests.scrypt (textBytes given) salt == digests.scrypt (textBytes password) salt) := by
  rw [AuthDigests.verifyPassword, splitDollars_hashPassword]
  simp only [ne_eq, not_true_eq_false, if_false, base64Decode_base64Encode]

end Effects

end Nebularr
