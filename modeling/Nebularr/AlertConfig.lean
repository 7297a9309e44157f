import Nebularr.AlertStore

/-!
# Configuring alerts

`PUT /api/config/alert-webhooks` merges its payload with what is stored and with
the environment, writes the result, and configures the running notifier with it;
the next start reads the rows back and configures a new one.  The two agree but
for URLs: none at all is written as an empty list, which the next start takes for
nothing stored.  And the store knows three of the four event types.
-/

namespace Nebularr

variable {F : Type}

/-! ## The notifier's side -/

/-- `AlertNotifier.__init__`. -/
def AlertEnv.notifier (env : AlertEnv F) : AlertSettings F where
  webhookUrls := env.urls
  timeoutSeconds := env.timeoutSeconds
  minState := env.minState
  notifyRecovery := env.notifyRecovery
  events := fun _ => true
  email := none

/-- The arguments of `configure`; what is not given is kept. -/
structure ConfigureArgs (F : Type) where
  webhookUrls : Option (List String) := none
  timeoutSeconds : Option F := none
  minState : Option AlertMinState := none
  notifyRecovery : Option Bool := none
  events : Option (AlertEvent → Option Bool) := none
  email : Option AlertEmail := none

/-- `configure`. -/
def configure (num : PyNumbers F) (settings : AlertSettings F) (args : ConfigureArgs F) :
    AlertSettings F where
  webhookUrls := (args.webhookUrls.map cleaned).getD settings.webhookUrls
  timeoutSeconds := (args.timeoutSeconds.map num.atLeastOne).getD settings.timeoutSeconds
  minState := args.minState.getD settings.minState
  notifyRecovery := args.notifyRecovery.getD settings.notifyRecovery
  events := (args.events.map fun events event => (events event).getD true).getD settings.events
  email := args.email.or settings.email

/-- Both callers give everything. -/
def AlertWebhookConfig.args (config : AlertWebhookConfig F) : ConfigureArgs F where
  webhookUrls := some config.webhookUrls
  timeoutSeconds := some config.timeoutSeconds
  minState := some config.minState
  notifyRecovery := some config.notifyRecovery
  events := some config.events
  email := some config.email

/-! ## The endpoint -/

/-- The body of the request, as far as the endpoint looks at it. -/
structure AlertPayload (F : Type) where
  clearUrls : Option (PyValue F) := none
  webhookUrls : Option (PyValue F) := none
  timeoutSeconds : Option (PyValue F) := none
  minState : Option (PyValue F) := none
  notifyRecovery : Option (PyValue F) := none
  events : Option (PyValue F) := none
  email : Option (PyValue F) := none

/-- What the egress check asks of the outside: the host of a URL, if it names
one, and why the policy refuses it, if it does. -/
structure Egress where
  hostname : String → Option String
  refusal : String → Option String

/-- The scheme of a URL, in lower case: what stands before the first colon, if
it is one.  Leading controls and blanks, tabs and line breaks do not count. -/
def urlScheme (url : String) : String :=
  let text := (url.toList.dropWhile fun c => c.toNat ≤ 32).filter fun c =>
    c ≠ '\t' && c ≠ '\n' && c ≠ '\r'
  let scheme := text.takeWhile (· ≠ ':')
  if scheme.length < text.length && scheme.head?.any Char.isAlpha &&
      scheme.all fun c => c.isAlphanum || c = '+' || c = '-' || c = '.' then
    (String.ofList scheme).toLower
  else ""

/-- `assert_url_allowed`: the text of the error, if there is one. -/
def assertUrlAllowed (egress : Egress) (url : String) : Option String :=
  let url := strip url
  match egress.hostname url with
  | none => some "must be a valid http(s) URL"
  | some host =>
      if urlScheme url = "http" ∨ urlScheme url = "https" then egress.refusal host
      else some "must be a valid http(s) URL"

/-- `normalize_ntfy_url`. -/
def normalizeNtfyUrl (url : String) : String :=
  let marker := "ntfy://".toList
  if marker <+: url.toLower.toList then
    String.ofList ("https://".toList ++ url.toList.drop marker.length)
  else url

/-- `require_egress_allowed` for every URL. -/
def requireEgressAllowed (egress : Egress) : List String → Except ApiError Unit
  | [] => .ok ()
  | url :: rest =>
      match assertUrlAllowed egress (normalizeNtfyUrl url) with
      | none => requireEgressAllowed egress rest
      | some reason => .error (.http 400 ("webhook_urls: " ++ reason))

section Endpoint

variable (num : PyNumbers F) (key : SecretKey) (egress : Egress) (env : AlertEnv F)

/-- `parse_webhook_urls`. -/
def parseWebhookUrls (raw : PyValue F) : List String :=
  match raw with
  | .arr items => num.strippedTexts items
  | .str text => cleaned ((splitLines text).flatMap splitCommas)
  | _ => []

/-- The URLs that a payload asks for: none when it clears them, and `none` when
it says nothing of them. -/
def requestedUrls (payload : AlertPayload F) : Option (List String) :=
  if num.toBool (payload.clearUrls.getD (.bool false)) false then some []
  else
    match payload.webhookUrls with
    | none => none
    | some .null => none
    | some raw => some (parseWebhookUrls num raw)

/-- `timeout_seconds`, with the check of it. -/
def requestedTimeout (payload : AlertPayload F) (current : F) : Except ApiError F :=
  match num.float (payload.timeoutSeconds.getD (.real current)) with
  | none => .error (.raised "float()")
  | some timeout =>
      if num.notPositive timeout then
        .error (.http 400 "timeout_seconds must be greater than zero")
      else .ok timeout

/-- `min_state`, with the check of it. -/
def requestedMinState (payload : AlertPayload F) (current : AlertMinState) :
    Except ApiError AlertMinState :=
  match minStateOf (num.str (payload.minState.getD (.str current.text))) with
  | none => .error (.http 400 "min_state must be warning or critical")
  | some level => .ok level

/-- The event flags in force after the request, and the store with them. -/
def applyEvents (payload : AlertPayload F) (current : AlertEvent → Option Bool)
    (store : AlertStore F) : AlertStore F × (AlertEvent → Option Bool) :=
  match payload.events with
  | some (.obj provided) =>
      let events (event : AlertEvent) := (current event).map fun flag =>
        ((provided.lookup event.name).map fun value => num.toBool value flag).getD flag
      (storeAlertWebhookEvents events store, events)
  | _ => (store, current)

/-- `{**current["email"], **provided_email}`. -/
def mergedEmail (current : AlertEmail) (provided : List (String × PyValue F)) (name : String) :
    Option (PyValue F) :=
  (provided.lookup name).or (List.lookup name [
    ("enabled", .bool current.enabled), ("host", .str current.host), ("port", .int current.port),
    ("username", .str current.username), ("password", .str current.password),
    ("from_address", .str current.fromAddress),
    ("to_addresses", .arr (current.toAddresses.map .str)), ("starttls", .bool current.starttls)])

/-- The checks of the merged email settings and the password to store. -/
def checkEmail (merged : String → Option (PyValue F)) (provided : List (String × PyValue F)) :
    Except ApiError (Option String) := do
  match num.int ((merged "port").getD (.int 587)) with
  | .refused => throw (.http 400 "email.port must be an integer")
  | .overflow => throw (.raised "OverflowError")
  | .int port =>
      if port < 1 ∨ 65535 < port then
        throw (.http 400 "email.port must be between 1 and 65535")
  if num.toBool ((merged "enabled").getD (.bool false)) false = true ∧
      num.stripped ((merged "host").getD (.str "")) = "" then
    throw (.http 400 "email.host is required when email is enabled")
  match provided.lookup "password" with
  | none => return none
  | some .null => return none
  | some (.str password) => return some password
  | some _ => throw (.http 400 "email.password must be a string")

/-- The email part of the request. -/
def applyEmail (payload : AlertPayload F) (current : AlertEmail) (store : AlertStore F) :
    Except ApiError (AlertStore F) :=
  match payload.email with
  | some (.obj provided) => do
      let merged := mergedEmail current provided
      let password ← checkEmail num merged provided
      storeAlertEmailConfig num key merged password store
  | _ => .ok store

/-- The URLs in force after the request, and the store with them. -/
def applyUrls (payload : AlertPayload F) (current : List String) (store : AlertStore F) :
    Except ApiError (AlertStore F × List String) :=
  match requestedUrls num payload with
  | none => .ok (store, current)
  | some urls => do
      let stored ← storeAlertWebhookUrls key urls store
      return (stored, urls)

/-- `update_alert_webhook_config`: the rows it leaves and what it configures the
notifier with.  An error leaves everything as it was. -/
def updateAlertWebhookConfig (payload : AlertPayload F) (store : AlertStore F) :
    Except ApiError (AlertStore F × AlertWebhookConfig F) := do
  requireEgressAllowed egress ((requestedUrls num payload).getD [])
  let current ← readAlertWebhookConfig num key env store
  let (withUrls, urls) ← applyUrls num key payload current.webhookUrls store
  let timeout ← requestedTimeout num payload current.timeoutSeconds
  let minState ← requestedMinState num payload current.minState
  let notifyRecovery :=
    num.toBool (payload.notifyRecovery.getD (.bool current.notifyRecovery)) current.notifyRecovery
  let withOptions := storeAlertWebhookOptions timeout minState notifyRecovery withUrls
  let withEvents := applyEvents num payload current.events withOptions
  let stored ← applyEmail num key payload current.email withEvents.1
  let email ← readAlertEmailConfig num key stored
  return (stored, ⟨urls, timeout, minState, notifyRecovery, withEvents.2, email⟩)

end Endpoint

/-! ## After the request and after a restart -/

/-- The flag that a payload sets for an event. -/
def AlertPayload.flag (num : PyNumbers F) (payload : AlertPayload F) (event : AlertEvent) :
    Option Bool :=
  match payload.events with
  | some (.obj provided) => (provided.lookup event.name).bind num.truth
  | _ => none

/-- The running notifier is the one that the next start configures, and has the
flags that the payload set. -/
structure ConfigAgrees (num : PyNumbers F) (key : SecretKey) (env : AlertEnv F)
    (payload : AlertPayload F) (stored : AlertStore F) (running : AlertSettings F) : Prop where
  restarted : ∃ config, readAlertWebhookConfig num key env stored = .ok config ∧
    configure num env.notifier config.args = running
  flags : ∀ event b, payload.flag num event = some b → running.events event = b

/-- The rows of the email settings are the only ones that differ. -/
structure SameAlertRows (store store' : AlertStore F) : Prop where
  urls : store'.urls = store.urls
  timeoutSeconds : store'.timeoutSeconds = store.timeoutSeconds
  minState : store'.minState = store.minState
  notifyRecovery : store'.notifyRecovery = store.notifyRecovery
  events : store'.events = store.events

section Agreement

variable {num : PyNumbers F} {key : SecretKey} {egress : Egress} {env : AlertEnv F}

/-- A URL that looks encrypted is not allowed. -/
theorem not_encrypted_of_allowed {url : String} (hstrip : strip url = url)
    (h : assertUrlAllowed egress (normalizeNtfyUrl url) = none) : ¬ encPrefix <+: url.toList := by
  intro ⟨rest, hurl⟩
  have hlower : ¬ "ntfy://".toList <+: url.toLower.toList := by
    rw [toList_toLower, ← hurl]
    simp [encPrefix]
  have hscheme : urlScheme url = "enc" := by
    have hmarker : encPrefix = ['e', 'n', 'c', ':', ':'] := by decide
    have henc : (String.ofList ['e', 'n', 'c']).toLower = "enc" := by decide +kernel
    unfold urlScheme
    rw [← hurl, hmarker]
    simp [henc]
  rw [normalizeNtfyUrl, if_neg hlower, assertUrlAllowed, hstrip] at h
  cases hhost : egress.hostname url with
  | none => simp [hhost] at h
  | some host => simp [hhost, hscheme] at h

/-- A requested address has been stripped and is not blank. -/
theorem clean_of_requestedUrls {payload : AlertPayload F} {urls : List String}
    (h : requestedUrls num payload = some urls) : ∀ url ∈ urls, CleanText url := by
  have hparse : ∀ raw, ∀ url ∈ parseWebhookUrls num raw, CleanText url := by
    intro raw url hurl
    unfold parseWebhookUrls at hurl
    split at hurl
    · obtain ⟨hmem, hne⟩ := List.mem_filter.mp hurl
      obtain ⟨item, _, rfl⟩ := List.mem_map.mp hmem
      exact ⟨strip_strip _, of_decide_eq_true hne⟩
    · exact clean_of_mem_cleaned hurl
    · exact absurd hurl List.not_mem_nil
  unfold requestedUrls at h
  split at h
  · obtain rfl := Option.some.inj h
    exact fun url hurl => absurd hurl List.not_mem_nil
  · split at h
    · cases h
    · cases h
    · obtain rfl := Option.some.inj h
      exact hparse _

/-- What passes the egress check may be reached, in the form it is stored. -/
theorem allowed_of_requireEgressAllowed {urls : List String}
    (h : requireEgressAllowed egress urls = .ok ()) :
    ∀ url ∈ urls, assertUrlAllowed egress (normalizeNtfyUrl url) = none := by
  induction urls with
  | nil => exact fun url hurl => absurd hurl List.not_mem_nil
  | cons first rest ih =>
      unfold requireEgressAllowed at h
      cases hfirst : assertUrlAllowed egress (normalizeNtfyUrl first) with
      | some reason =>
          rw [hfirst] at h
          cases h
      | none =>
          rw [hfirst] at h
          exact List.forall_mem_cons.mpr ⟨hfirst, ih h⟩

/-- Stored URLs are read back, and no URLs as those of the environment. -/
theorem readUrls_storeAlertWebhookUrls {urls : List String} {store stored : AlertStore F}
    (hclean : ∀ url ∈ urls, CleanText url) (hplain : ∀ url ∈ urls, ¬ encPrefix <+: url.toList)
    (h : storeAlertWebhookUrls key urls store = .ok stored) :
    readUrls num key env stored.urls = if urls = [] then env.urls else urls := by
  have hkept : (urls.filter fun url => strip url ≠ "") = urls := by
    rw [List.filter_eq_self]
    intro url hurl
    rw [(hclean url hurl).1]
    exact decide_eq_true (hclean url hurl).2
  rw [storeAlertWebhookUrls, hkept] at h
  obtain ⟨encoded, hencoded, h⟩ := exists_of_bind_ok h
  obtain rfl := Except.ok.inj h
  have hdecoded : encoded.mapM (decryptSecret key) = .ok urls :=
    mapM_inverse (fun url hurl stored hstored =>
      decryptSecret_encryptSecret (hclean url hurl) (hplain url hurl) hstored) hencoded
  have hsome : urls.filter (· ≠ "") = urls := by
    rw [List.filter_eq_self]
    exact fun url hurl => decide_eq_true (hclean url hurl).2
  have hitems : (encoded.map PyValue.str).mapM (fun item => decryptSecret key (num.str item)) =
      .ok urls := by
    rw [List.mapM_map]
    exact hdecoded
  simp only [readUrls, hitems, hsome]

/-- Stored options are read back. -/
theorem read_storeAlertWebhookOptions (num : PyNumbers F) (env : AlertEnv F) (timeout : F)
    (level : AlertMinState) (notify : Bool) (store : AlertStore F) :
    let stored := storeAlertWebhookOptions timeout level notify store
    readTimeout num env stored.timeoutSeconds = num.atLeastOne timeout ∧
      minStateOf stored.minState = some level ∧
      readNotifyRecovery num env stored.notifyRecovery = notify := by
  refine ⟨rfl, ?_, ?_⟩
  · cases level with
    | warning => exact minStateOf_text .warning
    | critical => exact minStateOf_text .critical
  · have htrue : strip "true" = "true" := by decide
    have hfalse : strip "false" = "false" := by decide
    have hlower : "true".toLower = "true" ∧ "false".toLower = "false" := by decide +kernel
    cases notify <;>
      simp [readNotifyRecovery, storeAlertWebhookOptions, htrue, hfalse, hlower, PyNumbers.toBool,
        PyNumbers.truth, PyNumbers.stripped, PyNumbers.str]

/-- Stored flags are read back. -/
theorem readEvents_storeAlertWebhookEvents (events : AlertEvent → Option Bool)
    (store : AlertStore F) (event : AlertEvent) :
    readEvents num (storeAlertWebhookEvents events store).events event =
      if event ∈ storedEventTypes then some ((events event).getD true) else none := by
  cases event <;>
    simp [readEvents, storeAlertWebhookEvents, storedEventTypes, AlertEvent.name, PyNumbers.toBool,
      PyNumbers.truth, List.lookup_cons]

/-- Storing the mail settings leaves the webhooks and the events. -/
theorem sameAlertRows_storeAlertEmailConfig {config : String → Option (PyValue F)}
    {password : Option String} {store stored : AlertStore F}
    (h : storeAlertEmailConfig num key config password store = .ok stored) :
    SameAlertRows store stored := by
  unfold storeAlertEmailConfig at h
  cases password with
  | none =>
      obtain rfl := Except.ok.inj h
      exact ⟨rfl, rfl, rfl, rfl, rfl⟩
  | some password =>
      by_cases hempty : password = ""
      · simp only [hempty, if_true] at h
        obtain ⟨encrypted, _, h⟩ := exists_of_bind_ok h
        obtain rfl := Except.ok.inj h
        exact ⟨rfl, rfl, rfl, rfl, rfl⟩
      · simp only [hempty, if_false] at h
        obtain ⟨encrypted, _, h⟩ := exists_of_bind_ok h
        obtain rfl := Except.ok.inj h
        exact ⟨rfl, rfl, rfl, rfl, rfl⟩

/-- So does applying the mail part of a request. -/
theorem sameAlertRows_applyEmail {payload : AlertPayload F} {current : AlertEmail}
    {store stored : AlertStore F} (h : applyEmail num key payload current store = .ok stored) :
    SameAlertRows store stored := by
  unfold applyEmail at h
  split at h
  · obtain ⟨password, _, h⟩ := exists_of_bind_ok h
    exact sameAlertRows_storeAlertEmailConfig h
  · obtain rfl := Except.ok.inj h
    exact ⟨rfl, rfl, rfl, rfl, rfl⟩

/-- What the next start finds of the URLs: those in force, unless the request
has left none. -/
theorem readUrls_applyUrls {payload : AlertPayload F} {store withUrls : AlertStore F}
    {urls : List String}
    (hallowed : requireEgressAllowed egress ((requestedUrls num payload).getD []) = .ok ())
    (h : applyUrls num key payload (readUrls num key env store.urls) store = .ok (withUrls, urls)) :
    readUrls num key env withUrls.urls =
      (if requestedUrls num payload = some [] then env.urls else urls) ∧
      (requestedUrls num payload = some [] → urls = []) ∧ withUrls.events = store.events := by
  unfold applyUrls at h
  cases hrequested : requestedUrls num payload with
  | none =>
      rw [hrequested] at h
      obtain ⟨rfl, rfl⟩ := Prod.mk.inj (Except.ok.inj h)
      simp
  | some requested =>
      rw [hrequested] at h hallowed
      obtain ⟨stored, hstored, h⟩ := exists_of_bind_ok h
      obtain ⟨rfl, rfl⟩ := Prod.mk.inj (Except.ok.inj h)
      have hclean := clean_of_requestedUrls hrequested
      have hplain : ∀ url ∈ requested, ¬ encPrefix <+: url.toList := fun url hurl =>
        not_encrypted_of_allowed (hclean url hurl).1
          (allowed_of_requireEgressAllowed hallowed url hurl)
      have hevents : stored.events = store.events := by
        obtain ⟨encoded, _, hencoded⟩ := exists_of_bind_ok hstored
        obtain rfl := Except.ok.inj hencoded
        rfl
      refine ⟨?_, fun hnone => Option.some.inj hnone, hevents⟩
      rw [readUrls_storeAlertWebhookUrls hclean hplain hstored]
      simp

/-- The events with a flag are those that the store knows. -/
theorem exists_readEvents (num : PyNumbers F) (slot : Stored (PyValue F)) {event : AlertEvent}
    (hevent : event ∈ storedEventTypes) : ∃ flag, readEvents num slot event = some flag := by
  unfold readEvents
  rw [if_pos hevent]
  cases slot with
  | value row => cases row <;> exact ⟨_, rfl⟩
  | _ => exact ⟨_, rfl⟩

/-- The flags that the next start finds are those in force. -/
theorem readEvents_applyEvents (num : PyNumbers F) (payload : AlertPayload F)
    (store : AlertStore F) :
    readEvents num (applyEvents num payload (readEvents num store.events) store).1.events =
      (applyEvents num payload (readEvents num store.events) store).2 := by
  unfold applyEvents
  split
  · funext event
    rw [readEvents_storeAlertWebhookEvents]
    by_cases hevent : event ∈ storedEventTypes
    · obtain ⟨flag, hflag⟩ := exists_readEvents num store.events hevent
      simp [hevent, hflag]
    · simp [readEvents, hevent]
  · rfl

/-- The flag in force is the one that the payload sets, if the store knows the
event; an event that it does not know has none. -/
theorem applyEvents_flag (payload : AlertPayload F) (slot : Stored (PyValue F))
    (store : AlertStore F) (event : AlertEvent) :
    (event ∈ storedEventTypes → ∀ b, payload.flag num event = some b →
      (applyEvents num payload (readEvents num slot) store).2 event = some b) ∧
    (event ∉ storedEventTypes →
      (applyEvents num payload (readEvents num slot) store).2 event = none) := by
  unfold AlertPayload.flag applyEvents
  split
  · refine ⟨fun hevent b h => ?_, fun hevent => by simp [readEvents, hevent]⟩
    obtain ⟨value, hvalue, htruth⟩ := Option.bind_eq_some_iff.mp h
    obtain ⟨flag, hflag⟩ := exists_readEvents num slot hevent
    simp [hflag, hvalue, PyNumbers.toBool, htruth]
  · exact ⟨fun _ b h => (by cases h), fun hevent => by simp [readEvents, hevent]⟩

/-- Applying the events leaves every other row. -/
theorem applyEvents_rows (num : PyNumbers F) (payload : AlertPayload F)
    (current : AlertEvent → Option Bool) (store : AlertStore F) :
    let stored := (applyEvents num payload current store).1
    stored.urls = store.urls ∧ stored.timeoutSeconds = store.timeoutSeconds ∧
      stored.minState = store.minState ∧ stored.notifyRecovery = store.notifyRecovery := by
  unfold applyEvents
  split <;> exact ⟨rfl, rfl, rfl, rfl⟩

/-- What is read are the stored addresses and events. -/
theorem current_of_readAlertWebhookConfig {store : AlertStore F} {config : AlertWebhookConfig F}
    (h : readAlertWebhookConfig num key env store = .ok config) :
    config.webhookUrls = readUrls num key env store.urls ∧
      config.events = readEvents num store.events := by
  obtain ⟨email, _, h⟩ := exists_of_bind_ok h
  obtain rfl := Except.ok.inj h
  exact ⟨rfl, rfl⟩

/-- An accepted request: what the next start reads of the rows it leaves. -/
theorem read_of_updateAlertWebhookConfig {payload : AlertPayload F} {store stored : AlertStore F}
    {applied : AlertWebhookConfig F}
    (h : updateAlertWebhookConfig num key egress env payload store = .ok (stored, applied)) :
    readAlertWebhookConfig num key env stored =
        .ok { applied with
          webhookUrls :=
  if requestedUrls num payload = some [] then env.urls else applied.webhookUrls
          timeoutSeconds := num.atLeastOne applied.timeoutSeconds } ∧
      (requestedUrls num payload = some [] → applied.webhookUrls = []) ∧
      ∃ slot before, applied.events = (applyEvents num payload (readEvents num slot) before).2 := by
  unfold updateAlertWebhookConfig at h
  obtain ⟨_, hallowed, h⟩ := exists_of_bind_ok h
  obtain ⟨current, hcurrent, h⟩ := exists_of_bind_ok h
  obtain ⟨⟨withUrls, urls⟩, hurls, h⟩ := exists_of_bind_ok h
  obtain ⟨timeout, _, h⟩ := exists_of_bind_ok h
  obtain ⟨level, _, h⟩ := exists_of_bind_ok h
  obtain ⟨withEmail, hwithEmail, h⟩ := exists_of_bind_ok h
  obtain ⟨email, hemail, h⟩ := exists_of_bind_ok h
  obtain ⟨rfl, rfl⟩ := Prod.mk.inj (Except.ok.inj h)
  obtain ⟨hcurrentUrls, hcurrentEvents⟩ := current_of_readAlertWebhookConfig hcurrent
  rw [hcurrentUrls] at hurls
  rw [hcurrentEvents] at hwithEmail ⊢
  obtain ⟨hread, hnone, hevents⟩ := readUrls_applyUrls hallowed hurls
  refine ⟨?_, hnone, store.events, _, rfl⟩
  generalize num.toBool (payload.notifyRecovery.getD (.bool current.notifyRecovery))
    current.notifyRecovery = notify at hwithEmail ⊢
  obtain ⟨hoptionTimeout, hoptionState, hoptionNotify⟩ :=
    read_storeAlertWebhookOptions num env timeout level notify withUrls
  have hoptionEvents : (storeAlertWebhookOptions timeout level notify withUrls).events =
      store.events := hevents
  have hoptionUrls : (storeAlertWebhookOptions timeout level notify withUrls).urls =
      withUrls.urls := rfl
  generalize storeAlertWebhookOptions timeout level notify withUrls = withOptions at *
  obtain ⟨hrowUrls, hrowTimeout, hrowState, hrowNotify⟩ :=
    applyEvents_rows num payload (readEvents num store.events) withOptions
  have hrowEvents := readEvents_applyEvents num payload withOptions
  rw [hoptionEvents] at hrowEvents
  have hsame := sameAlertRows_applyEmail hwithEmail
  rw [readAlertWebhookConfig, hemail, hsame.urls, hsame.timeoutSeconds, hsame.minState,
    hsame.notifyRecovery, hsame.events, hrowUrls, hrowTimeout, hrowState, hrowNotify, hrowEvents,
    hoptionUrls, hoptionTimeout, hoptionState, hoptionNotify, hread]
  rfl

/-- **When live and stored configuration agree**: unless a request leaves no
URLs where the environment has some, or silences automation failures, which the
store has no flag for. -/
theorem configAgrees_iff {payload : AlertPayload F} {store stored : AlertStore F}
    {applied : AlertWebhookConfig F}
    (h : updateAlertWebhookConfig num key egress env payload store = .ok (stored, applied))
    (running : AlertSettings F) :
    ConfigAgrees num key env payload stored (configure num running applied.args) ↔
      (requestedUrls num payload = some [] → env.urls = []) ∧
        payload.flag num .automationFailure ≠ some false := by
  obtain ⟨hread, hnone, slot, before, hevents⟩ := read_of_updateAlertWebhookConfig h
  have hflag : ∀ event, (configure num running applied.args).events event =
      (applied.events event).getD true := fun _ => rfl
  have henv : cleaned env.urls = env.urls := cleaned_of_clean fun _ => clean_of_mem_cleaned
  constructor
  · intro ⟨⟨config, hconfig, hagrees⟩, hflags⟩
    rw [hread] at hconfig
    obtain rfl := Except.ok.inj hconfig
    refine ⟨fun hcleared => ?_, fun hsilenced => ?_⟩
    · have hurls := congrArg AlertSettings.webhookUrls hagrees
      simp only [configure, AlertWebhookConfig.args, Option.map_some, Option.getD_some,
        if_pos hcleared, hnone hcleared, henv] at hurls
      exact hurls
    · have hforced := hflags .automationFailure false hsilenced
      rw [hflag, hevents, (applyEvents_flag payload slot before .automationFailure).2
        (by simp [storedEventTypes])] at hforced
      cases hforced
  · intro ⟨hcleared, hsilenced⟩
    refine ⟨⟨_, hread, ?_⟩, fun event b hset => ?_⟩
    · have hurls : (if requestedUrls num payload = some [] then env.urls
          else applied.webhookUrls) = applied.webhookUrls := by
        split
        · rename_i hempty
          rw [hcleared hempty, hnone hempty]
        · rfl
      simp [configure, AlertWebhookConfig.args, hurls]
    · rw [hflag, hevents]
      by_cases hevent : event ∈ storedEventTypes
      · rw [(applyEvents_flag payload slot before event).1 hevent b hset]
        rfl
      · rw [(applyEvents_flag payload slot before event).2 hevent]
        have hautomation : event = .automationFailure := by
          cases event <;> simp [storedEventTypes] at hevent ⊢
        rw [hautomation] at hset
        cases b with
        | true => rfl
        | false => exact absurd hset hsilenced

end Agreement

/-! ## A cleared list over an environment with a URL -/

def blankAlertStore : AlertStore Int := ⟨.blank, .blank, "", "", .blank, .blank, ""⟩

def hookedEnv : AlertEnv Int := ⟨"https://alerts.example/hook", 10, .warning, true⟩

def openEgress : Egress := ⟨fun _ => some "alerts.example", fun _ => none⟩

/-- What is in force where no row is stored. -/
def hookedConfig : AlertWebhookConfig Int :=
  ⟨hookedEnv.urls, 10, .warning, true, readEvents wholeNumbers .blank, defaultAlertEmail⟩

/-- The request that only clears the URLs. -/
def clearingPayload : AlertPayload Int := { clearUrls := some (.bool true) }

/-- The rows that it leaves. -/
def clearedAlertStore : AlertStore Int :=
  ⟨.value (.arr []), .value 10, "warning", "true", .blank, .blank, ""⟩

/-- A request that clears the addresses. -/
theorem updateAlertWebhookConfig_clearing :
    updateAlertWebhookConfig wholeNumbers .absent openEgress hookedEnv clearingPayload
        blankAlertStore =
      .ok (clearedAlertStore, { hookedConfig with webhookUrls := [] }) := by
  have hemail : ∀ store : AlertStore Int, store.email = .blank → store.emailPassword = "" →
      readAlertEmailConfig wholeNumbers .absent store = .ok defaultAlertEmail :=
    fun _ => readAlertEmailConfig_blank wholeNumbers .absent
  have hcurrent : readAlertWebhookConfig wholeNumbers .absent hookedEnv blankAlertStore =
      .ok hookedConfig := by
    have hblank : strip "" = "" := by decide
    have hstate : minStateOf "" = none := by decide +kernel
    rw [readAlertWebhookConfig, hemail blankAlertStore rfl rfl]
    simp [bind, Except.bind, pure, Except.pure, blankAlertStore, readUrls, readTimeout, hstate,
      readNotifyRecovery, hblank, hookedConfig, hookedEnv]
  have hlevel : requestedMinState wholeNumbers clearingPayload hookedConfig.minState =
      .ok .warning := by
    simp [requestedMinState, clearingPayload, PyNumbers.str, hookedConfig]
  have hurls : applyUrls wholeNumbers .absent clearingPayload hookedConfig.webhookUrls
      blankAlertStore = .ok ({ blankAlertStore with urls := .value (.arr []) }, []) := rfl
  have htimeout : requestedTimeout wholeNumbers clearingPayload hookedConfig.timeoutSeconds =
      .ok 10 := rfl
  have hafter := hemail clearedAlertStore rfl rfl
  rw [updateAlertWebhookConfig, hcurrent]
  simp only [bind, Except.bind, hurls, htimeout, hlevel]
  show (readAlertEmailConfig wholeNumbers .absent clearedAlertStore >>= fun email =>
    .ok (clearedAlertStore, { hookedConfig with webhookUrls := [], email := email })) = _
  rw [hafter]
  rfl

/-- A cleared list is that of the environment again after a restart. -/
theorem not_configAgrees_clearing :
    ¬ ∀ (running : AlertSettings Int) (stored : AlertStore Int) (applied : AlertWebhookConfig Int),
      updateAlertWebhookConfig wholeNumbers .absent openEgress hookedEnv clearingPayload
          blankAlertStore = .ok (stored, applied) →
        ConfigAgrees wholeNumbers .absent hookedEnv clearingPayload stored
          (configure wholeNumbers running applied.args) := by
  intro hagrees
  obtain ⟨⟨config, hconfig, hrestarted⟩, _⟩ :=
    hagrees hookedEnv.notifier _ _ updateAlertWebhookConfig_clearing
  obtain ⟨email, _, hconfig⟩ := exists_of_bind_ok hconfig
  obtain rfl := Except.ok.inj hconfig
  have hurls : cleaned hookedEnv.urls = [] := congrArg AlertSettings.webhookUrls hrestarted
  exact absurd hurls (by decide +kernel)

/-- The request that clears, with an address in the environment. -/
theorem configAgrees_iff_clearing :
    ConfigAgrees wholeNumbers .absent hookedEnv clearingPayload clearedAlertStore
        (configure wholeNumbers hookedEnv.notifier
          { hookedConfig with webhookUrls := [] }.args) ↔
      (requestedUrls wholeNumbers clearingPayload = some [] → hookedEnv.urls = []) ∧
        clearingPayload.flag wholeNumbers .automationFailure ≠ some false :=
  configAgrees_iff updateAlertWebhookConfig_clearing hookedEnv.notifier

end Nebularr
