import Nebularr.AlertNotifier
import Nebularr.PythonValues

/-!
# The stored alert configuration

The alert configuration in `app.settings`: how it is read, with the environment
for what is not stored, and how it is written.  A row is taken as its reader
decodes it; secrets are encrypted when there is a key, by any scheme that
decrypts what it has encrypted.
-/

namespace Nebularr

/-- An answer of the API that is not a success: an `HTTPException`, or an
exception that nothing catches. -/
inductive ApiError
  | http (status : ℕ) (detail : String)
  | raised (what : String)
deriving DecidableEq, Repr

/-! ## Secrets -/

/-- The scheme behind a key; its tokens are url-safe base64. -/
structure Fernet where
  encrypt : String → String
  decrypt : String → Option String
  decrypt_encrypt : ∀ text, decrypt (encrypt text) = some text
  tokenUnspaced : ∀ text, ∀ c ∈ (encrypt text).toList, isPySpace c = false

/-- `APP_ENCRYPTION_KEY`: not set, set to what is no key, or a key. -/
inductive SecretKey
  | absent
  | malformed
  | key (fernet : Fernet)

/-- `ENC_PREFIX`. -/
def encPrefix : List Char := "enc::".toList

/-- What `_build_fernet` raises for a malformed key. -/
def malformedKey : ApiError := .raised "APP_ENCRYPTION_KEY is set but invalid"

/-- `encrypt_secret`. -/
def encryptSecret (key : SecretKey) (value : String) : Except ApiError String :=
  let normalized := strip value
  if normalized = "" then .ok ""
  else
    match key with
    | .absent => .ok normalized
    | .malformed => .error malformedKey
    | .key fernet => .ok (String.ofList (encPrefix ++ (fernet.encrypt normalized).toList))

/-- `decrypt_secret`. -/
def decryptSecret (key : SecretKey) (value : String) : Except ApiError String :=
  let normalized := strip value
  if normalized = "" then .ok ""
  else if ¬ encPrefix <+: normalized.toList then .ok normalized
  else
    match key with
    | .absent => .ok ""
    | .malformed => .error malformedKey
    | .key fernet =>
        .ok ((fernet.decrypt (String.ofList (normalized.toList.drop encPrefix.length))).getD "")

/-- What is encrypted has no white space around it. -/
theorem strip_encrypted (fernet : Fernet) (text : String) :
    strip (String.ofList (encPrefix ++ (fernet.encrypt text).toList)) =
      String.ofList (encPrefix ++ (fernet.encrypt text).toList) := by
  have hmarker : ∀ c ∈ encPrefix, isPySpace c = false := by
    have hall : encPrefix.all (fun c => !isPySpace c) = true := by decide
    simpa only [List.all_eq_true, Bool.not_eq_true'] using hall
  have hunspaced : ∀ c ∈ encPrefix ++ (fernet.encrypt text).toList, isPySpace c = false :=
    List.forall_mem_append.mpr ⟨hmarker, fernet.tokenUnspaced text⟩
  rw [strip_eq_self_iff, String.toList_ofList]
  exact ⟨fun c hc => hunspaced c (List.mem_of_head? hc),
    fun c hc => hunspaced c (List.mem_of_getLast? hc)⟩

/-- What was encrypted is decrypted, also if it looks encrypted itself. -/
theorem decryptSecret_encrypted (fernet : Fernet) (text : String) :
    decryptSecret (.key fernet) (String.ofList (encPrefix ++ (fernet.encrypt text).toList)) =
      .ok text := by
  have hsome : String.ofList (encPrefix ++ (fernet.encrypt text).toList) ≠ "" := by
    intro hnil
    have hlist := congrArg String.toList hnil
    simp [encPrefix] at hlist
  unfold decryptSecret
  rw [strip_encrypted, if_neg hsome, String.toList_ofList,
    if_neg (not_not.mpr (List.prefix_append _ _)), List.drop_left, String.ofList_toList]
  simp [fernet.decrypt_encrypt]

/-- **Secrets round-trip**, unless one looks encrypted already. -/
theorem decryptSecret_encryptSecret {key : SecretKey} {value stored : String}
    (hclean : CleanText value)
    (hplain : ¬ encPrefix <+: value.toList) (h : encryptSecret key value = .ok stored) :
    decryptSecret key stored = .ok value := by
  obtain ⟨hstrip, hne⟩ := hclean
  unfold encryptSecret at h
  rw [hstrip, if_neg hne] at h
  cases key with
  | malformed => cases h
  | absent =>
      obtain rfl := Except.ok.inj h
      simp [decryptSecret, hstrip, hne, hplain]
  | key fernet =>
      obtain rfl := Except.ok.inj h
      exact decryptSecret_encrypted fernet value

/-- What undoes each of the answers undoes all of them. -/
theorem mapM_inverse {ε α β : Type} {f : α → Except ε β} {g : β → Except ε α} {l : List α}
    {l' : List β} (hinverse : ∀ a ∈ l, ∀ b, f a = .ok b → g b = .ok a) (h : l.mapM f = .ok l') :
    l'.mapM g = .ok l := by
  induction l generalizing l' with
  | nil =>
      rw [List.mapM_nil] at h
      cases h
      rfl
  | cons a rest ih =>
      rw [List.mapM_cons] at h
      obtain ⟨b, ha, h⟩ := exists_of_bind_ok h
      obtain ⟨answers, hrest, h⟩ := exists_of_bind_ok h
      obtain rfl := Except.ok.inj h
      have hback := ih (fun x hx => hinverse x (List.mem_cons_of_mem a hx)) hrest
      rw [List.mapM_cons, hinverse a List.mem_cons_self b ha, hback]
      rfl

/-! ## The rows -/

/-- The alert defaults of the environment. -/
structure AlertEnv (F : Type) where
  alertWebhookUrls : String
  timeoutSeconds : F
  minState : AlertMinState
  notifyRecovery : Bool

/-- The rows of `app.settings` under the alert keys. -/
structure AlertStore (F : Type) where
  urls : Stored (PyValue F)
  timeoutSeconds : Stored F
  minState : String
  notifyRecovery : String
  events : Stored (PyValue F)
  email : Stored (PyValue F)
  emailPassword : String

/-- `AlertWebhookConfig`; an event that is not a key of `events` is `none`. -/
structure AlertWebhookConfig (F : Type) where
  webhookUrls : List String
  timeoutSeconds : F
  minState : AlertMinState
  notifyRecovery : Bool
  events : AlertEvent → Option Bool
  email : AlertEmail

/-- `ALERT_EVENT_TYPES` of the store. -/
def storedEventTypes : List AlertEvent := [.health, .syncFailure, .deadLetter]

def AlertEvent.name : AlertEvent → String
  | health => "health"
  | syncFailure => "sync_failure"
  | deadLetter => "dead_letter"
  | automationFailure => "automation_failure"

/-- `DEFAULT_ALERT_EMAIL_CONFIG`. -/
def defaultAlertEmail : AlertEmail where
  enabled := false
  host := ""
  port := 587
  username := ""
  password := ""
  fromAddress := ""
  toAddresses := []
  starttls := true

/-- `[url.strip() for url in settings.alert_webhook_urls.split(",") if url.strip()]`. -/
def AlertEnv.urls {F : Type} (env : AlertEnv F) : List String :=
  cleaned (splitCommas env.alertWebhookUrls)

def AlertMinState.text : AlertMinState → String
  | warning => "warning"
  | critical => "critical"

/-- A level, as a text names it. -/
def minStateOf (text : String) : Option AlertMinState :=
  let normalized := (strip text).toLower
  if normalized = "critical" then some .critical
  else if normalized = "warning" then some .warning
  else none

@[simp] theorem minStateOf_text (level : AlertMinState) : minStateOf level.text = some level := by
  cases level <;> decide +kernel

section Store

variable {F : Type} (num : PyNumbers F) (key : SecretKey) (env : AlertEnv F)

/-- The stored URLs, or those of the environment. -/
def readUrls (slot : Stored (PyValue F)) : List String :=
  let stored :=
    match slot with
    | .value (.arr items) =>
        match items.mapM fun item => decryptSecret key (num.str item) with
        | .ok texts => texts.filter (· ≠ "")
        | .error _ => []
    | _ => []
  if stored = [] then env.urls else stored

def readTimeout (slot : Stored F) : F :=
  match slot with
  | .value x => num.atLeastOne x
  | _ => env.timeoutSeconds

def readNotifyRecovery (raw : String) : Bool :=
  if strip raw = "" then env.notifyRecovery else num.toBool (.str (strip raw)) env.notifyRecovery

def readEvents (slot : Stored (PyValue F)) (event : AlertEvent) : Option Bool :=
  if event ∈ storedEventTypes then
    match slot with
    | .value (.obj fields) =>
        some (((fields.lookup event.name).map fun value => num.toBool value true).getD true)
    | _ => some true
  else none

/-- `max(1, min(int(port), 65535))`; an infinite number raises. -/
def readPort (value : PyValue F) : Except ApiError Int :=
  match num.int value with
  | .int n => .ok (max 1 (min n 65535))
  | .refused => .ok 587
  | .overflow => .error (.raised "OverflowError")

/-- `read_alert_email_config`. -/
def readAlertEmailConfig (store : AlertStore F) : Except ApiError AlertEmail := do
  let fields :=
    match store.email with
    | .value (.obj fields) => fields
    | _ => []
  let text (name : String) := num.stripped ((fields.lookup name).getD (.str ""))
  let port ← readPort num ((fields.lookup "port").getD (.int 587))
  let password ←
    if strip store.emailPassword = "" then .ok "" else decryptSecret key (strip store.emailPassword)
  return {
    enabled := num.toBool ((fields.lookup "enabled").getD (.bool false)) false
    host := text "host"
    port := port
    username := text "username"
    password := password
    fromAddress := text "from_address"
    toAddresses :=
      match (fields.lookup "to_addresses").getD (.arr []) with
      | .arr items => num.strippedTexts items
      | _ => []
    starttls := num.toBool ((fields.lookup "starttls").getD (.bool true)) true }

/-- Without an email row these are the defaults. -/
theorem readAlertEmailConfig_blank {store : AlertStore F} (hemail : store.email = .blank)
    (hpassword : store.emailPassword = "") :
    readAlertEmailConfig num key store = .ok defaultAlertEmail := by
  have hblank : strip "" = "" := by decide
  simp [readAlertEmailConfig, hemail, hpassword, hblank, readPort, PyNumbers.int,
    PyNumbers.stripped, PyNumbers.str, PyNumbers.strippedTexts, PyNumbers.toBool, PyNumbers.truth,
    defaultAlertEmail, bind, Except.bind, pure, Except.pure]

/-- `read_alert_webhook_config`. -/
def readAlertWebhookConfig (store : AlertStore F) : Except ApiError (AlertWebhookConfig F) := do
  let email ← readAlertEmailConfig num key store
  return {
    webhookUrls := readUrls num key env store.urls
    timeoutSeconds := readTimeout num env store.timeoutSeconds
    minState := (minStateOf store.minState).getD env.minState
    notifyRecovery := readNotifyRecovery num env store.notifyRecovery
    events := readEvents num store.events
    email := email }

/-- `store_alert_webhook_urls`. -/
def storeAlertWebhookUrls (urls : List String) (store : AlertStore F) :
    Except ApiError (AlertStore F) := do
  let encoded ← (urls.filter fun url => strip url ≠ "").mapM (encryptSecret key)
  return { store with urls := .value (.arr (encoded.map .str)) }

/-- `store_alert_webhook_options`. -/
def storeAlertWebhookOptions (timeoutSeconds : F) (minState : AlertMinState)
    (notifyRecovery : Bool) (store : AlertStore F) : AlertStore F :=
  { store with
    timeoutSeconds := .value timeoutSeconds
    minState := minState.text
    notifyRecovery := if notifyRecovery then "true" else "false" }

/-- `store_alert_webhook_events`. -/
def storeAlertWebhookEvents (events : AlertEvent → Option Bool) (store : AlertStore F) :
    AlertStore F :=
  { store with
    events := .value (.obj (storedEventTypes.map fun event =>
      (event.name, .bool ((events event).getD true)))) }

/-- `store_alert_email_config`; `config` is the merged dictionary. -/
def storeAlertEmailConfig (config : String → Option (PyValue F)) (password : Option String)
    (store : AlertStore F) : Except ApiError (AlertStore F) := do
  let text (name : String) : PyValue F := .str (num.stripped ((config name).getD (.str "")))
  let toAddresses :=
    match (config "to_addresses").getD (.arr []) with
    | .arr items => num.strippedTexts items
    | _ => []
  let stored := { store with
    email := .value (.obj [
      ("enabled", .bool (num.toBool ((config "enabled").getD (.bool false)) false)),
      ("host", text "host"),
      ("port", (config "port").getD (.int 587)),
      ("username", text "username"),
      ("from_address", text "from_address"),
      ("to_addresses", .arr (toAddresses.map .str)),
      ("starttls", .bool (num.toBool ((config "starttls").getD (.bool true)) true))]) }
  match password with
  | none => return stored
  | some password =>
      let encrypted ← if password = "" then .ok "" else encryptSecret key password
      return { stored with emailPassword := encrypted }

end Store

end Nebularr
