import Nebularr.AuthStore
import Nebularr.CachedReads

/-!
# Who gets in

The server between the stored authentication state and the requests: a login
mints a session token for the epoch that it read, a request is let through by
what it reads, and the reads go through the cache of `get_auth_config`.  The
handlers that hash or check a password await in between, and the handlers that
are no coroutines run in threads, so everything here happens in any order.
The four settings of the configuration are four selects to the source and one
access here: a configuration read half before a commit and half after it is not
among those of the model.

A data reset is one transaction, but takes its table lock only after it has read
the rows it keeps; it may put back what was changed in between.
-/

namespace Nebularr

open CachedReads

/-! ## What one request does -/

/-- The settings from the environment. -/
structure AuthEnvironment where
  authEnabled : String
  authRecoveryPassword : String
  authSessionTtlHours : Int

/-- `_TRUE_VALUES` and `_FALSE_VALUES`. -/
def authTrueValues : List String := ["1", "true", "yes", "on"]
def authFalseValues : List String := ["0", "false", "no", "off"]

/-- `auth_required`, once the database is bound. -/
def authRequired (env : AuthEnvironment) (config : AuthConfig) : Bool :=
  let override := (strip env.authEnabled).toLower
  if authFalseValues.contains override then false
  else if authTrueValues.contains override then
    config.passwordSet || decide (strip env.authRecoveryPassword ≠ "")
  else config.enabled && config.passwordSet

/-- `AUTH_EXEMPT_PATHS`. -/
def authExemptPaths : List String := ["/api/auth/login", "/api/auth/status", "/api/art/wall"]

/-- `AUTH_PROTECTED_DOC_PATHS`. -/
def authProtectedDocPaths : List String := ["/docs", "/redoc", "/openapi.json"]

/-- `is_auth_protected_path`. -/
def isAuthProtectedPath (path : String) : Bool :=
  if authExemptPaths.contains path || path.startsWith "/api/art/wall/" then false
  else if authProtectedDocPaths.contains path then true
  else path.startsWith "/api/"

section Requests

variable (digests : AuthDigests)

/-- `verify_secret_hash`. -/
def AuthDigests.verifySecretHash (givenSecret storedHash : String) : Bool :=
  if storedHash = "" then false else digests.hashSecret givenSecret == storedHash

/-- The bearer token of `request_is_authenticated`. -/
def bearerAccepted (config : AuthConfig) (authHeader : String) : Bool :=
  if (authHeader.toLower).startsWith "bearer " then
    decide (config.apiTokenHash ≠ "") &&
      digests.verifySecretHash
        (strip (String.ofList (authHeader.toList.drop 7))) config.apiTokenHash
  else false

/-- Whether `auth_login` takes a password. -/
def loginAccepts (env : AuthEnvironment) (config : AuthConfig) (password : String) : Bool :=
  (config.passwordSet && digests.verifyPassword password config.passwordHash) ||
    (decide (strip env.authRecoveryPassword ≠ "") && decide (password ≠ "") &&
      password == strip env.authRecoveryPassword)

/-- `ttl_seconds` of `auth_login`. -/
def sessionTtlSeconds (env : AuthEnvironment) : Int := max 1 env.authSessionTtlHours * 3600

/-- How `enforce_auth` goes on. -/
inductive GateAnswer
  | passedOn
  | unauthorized
deriving DecidableEq, Repr

/-- `enforce_auth`; it reads the configuration twice. -/
def enforceAuth {F K : Type} (lib : SessionLibrary F K) (key : K) (env : AuthEnvironment)
    (first second : AuthConfig) (now : F) (path cookie authHeader : String) :
    Except Raised GateAnswer :=
  if !isAuthProtectedPath path then .ok .passedOn
  else if !authRequired env first then .ok .passedOn
  else
    (SessionLibrary.requestIsAuthenticated lib key second.sessionEpoch now cookie
        (bearerAccepted digests second authHeader)).map
      fun admitted => if admitted then .passedOn else .unauthorized

end Requests

/-! ## The server -/

/-- `_AUTH_CACHE_TTL_SECONDS`. -/
def authCacheTtl : ℕ := 5

/-- The settings with the cache over them; what handlers that await have read;
the tokens that were sent out; and what a reset has read. -/
structure AuthServer where
  shared : CachedStore SettingsTable AuthConfig
  held : List AuthConfig
  minted : List String
  kept : Option SettingsTable

/-- The accesses and transactions. -/
inductive AuthAction
  | access (a : CacheAction SettingsTable)
  | hold (i : ℕ)
  | login (n : ℕ) (password : String) (clock : Int)
  | update (n : ℕ) (salt : List UInt8) (apiToken : String) (request : AuthUpdate)
  | wizard (salt : List UInt8) (adminPassword : String)
  | resetRead
  | resetWrite
  | restart

/-- The stored configuration. -/
def AuthServer.stored (s : AuthServer) : AuthConfig := readAuthConfig s.shared.store

/-- A transaction that commits. -/
def AuthServer.commit (s : AuthServer) (settings : SettingsTable) : AuthServer :=
  { s with shared := { s.shared with store := settings } }

/-- What is stored after a commit is what the settings say. -/
@[simp] theorem AuthServer.stored_commit (s : AuthServer) (settings : SettingsTable) :
    (s.commit settings).stored = readAuthConfig settings := rfl

/-- A commit reaches no request under way. -/
@[simp] theorem AuthServer.held_commit (s : AuthServer) (settings : SettingsTable) :
    (s.commit settings).held = s.held := rfl

/-- A commit mints no token. -/
@[simp] theorem AuthServer.minted_commit (s : AuthServer) (settings : SettingsTable) :
    (s.commit settings).minted = s.minted := rfl

/-- A commit leaves the settings that a reset holds. -/
@[simp] theorem AuthServer.kept_commit (s : AuthServer) (settings : SettingsTable) :
    (s.commit settings).kept = s.kept := rfl

/-- What the server has done when it starts. -/
def AuthServer.start (settings : SettingsTable) (minted : List String) : AuthServer where
  shared := { store := settings, cache := none, cachedAt := 0, now := 0, reads := fun _ => .idle }
  held := []
  minted := minted
  kept := none

variable {F K : Type}

/-- One access or transaction; a request that is refused changes nothing. -/
def authStep (digests : AuthDigests) (lib : SessionLibrary F K) (key : K) (env : AuthEnvironment)
    (s : AuthServer) : AuthAction → Option AuthServer
  | .access (.commit _) => none
  | .access a =>
      (step readAuthConfig authCacheTtl s.shared a).map fun shared => { s with shared := shared }
  | .hold i =>
      match s.shared.reads i with
      | .done config => some { s with held := config :: s.held }
      | _ => none
  | .login n password clock =>
      match s.held[n]? with
      | none => none
      | some config =>
          if loginAccepts digests env config password then
            match lib.mintSessionToken clock (sessionTtlSeconds env) key config.sessionEpoch with
            | .ok token => some { s with minted := token :: s.minted }
            | .error _ => none
          else none
  | .update n salt apiToken request =>
      match s.held[n]? with
      | none => none
      | some config =>
          (authUpdateConfig digests salt apiToken config request s.shared.store).toOption.map
            s.commit
  | .wizard salt adminPassword =>
      (setupWizardPassword digests salt adminPassword s.shared.store).toOption.map s.commit
  | .resetRead => some { s with kept := some (resetData s.shared.store) }
  | .resetWrite => s.kept.map fun settings => { s.commit settings with kept := none }
  | .restart => some (AuthServer.start s.shared.store s.minted)

/-- No reset puts back authentication that was changed since it read it. -/
def ResetUndisturbed (s : AuthServer) (a : AuthAction) : Prop :=
  a = .resetWrite → ∀ settings, s.kept = some settings → readAuthConfig settings = s.stored

/-! ## Tokens at the gate -/

section Tokens

variable {lib : SessionLibrary F K} {key : K}

/-- A session token of an epoch. -/
structure TokenOf (lib : SessionLibrary F K) (key : K) (token : String) (exp epoch : Int) :
    Prop where
  token_eq : token = lib.tokenText key exp (some epoch)
  exp_writable : Writable10 exp
  epoch_writable : Writable10 epoch

/-- A minted token carries its expiry and its epoch. -/
theorem tokenOf_of_mint {clock ttlSeconds epoch : Int} {token : String}
    (h : lib.mintSessionToken clock ttlSeconds key epoch = .ok token) :
    TokenOf lib key token (clock + ttlSeconds) epoch := by
  obtain ⟨hexp, hepoch, htoken⟩ := SessionLibrary.mintSessionToken_eq_ok_iff.mp h
  exact ⟨htoken, hexp, hepoch⟩

variable {token : String} {exp epoch : Int}

/-- What `verify_session_token` makes of a minted token. -/
theorem TokenOf.verify (h : TokenOf lib key token exp epoch) (expected : Int) (now : F) :
    lib.verifySessionToken key expected now token =
      rejectBadValues (if epoch ≠ expected then .ok false
        else (lib.num.ofInt exp).elim (.error .overflowError) fun x =>
          .ok (lib.num.lessThan now x)) := by
  have hminted : SessionLibrary.MintedBody (SessionLibrary.tokenBody exp (some epoch)) exp
      (some epoch) := by
    refine ⟨rfl, h.exp_writable, fun n hn => ?_⟩
    obtain rfl := Option.some.inj hn
    exact h.epoch_writable
  have hparts : rpartition (lib.tokenText key exp (some epoch)).toList =
      (SessionLibrary.tokenBody exp (some epoch),
        lib.sign key (SessionLibrary.tokenBody exp (some epoch))) :=
    SessionLibrary.rpartition_tokenText key exp (some epoch)
  have hdot : '.' ∈ (lib.tokenText key exp (some epoch)).toList := by
    rw [SessionLibrary.toList_tokenText]
    simp
  rw [h.token_eq,
    (SessionLibrary.verify_of_parts hdot hparts (SessionLibrary.tokenBody_ne_nil _ _)).2.2 rfl,
    SessionLibrary.checkPayload_of_minted hminted, Option.getD_some]

/-- A token is not empty. -/
theorem TokenOf.ne_empty (h : TokenOf lib key token exp epoch) : token ≠ "" := by
  rintro rfl
  have htext := congrArg String.toList h.token_eq
  rw [SessionLibrary.toList_tokenText] at htext
  simp at htext

/-- A token of another epoch is no help. -/
theorem TokenOf.refused (h : TokenOf lib key token exp epoch) {expected : Int}
    (hne : epoch ≠ expected)
    (now : F) (bearer : Bool) :
    SessionLibrary.requestIsAuthenticated lib key expected now token bearer = .ok bearer := by
  rw [SessionLibrary.requestIsAuthenticated, if_neg h.ne_empty, h.verify expected now, if_pos hne]
  cases bearer <;> rfl

/-- A token of the epoch is, until it expires. -/
theorem TokenOf.admitted (h : TokenOf lib key token exp epoch) {now : F}
    (hsmall : exp.natAbs ≤ 2 ^ 53)
    (hbefore : lib.beforeInt now exp = true) (bearer : Bool) :
    SessionLibrary.requestIsAuthenticated lib key epoch now token bearer = .ok true := by
  obtain ⟨x, hx, hless⟩ := lib.ofInt_small exp hsmall
  rw [SessionLibrary.requestIsAuthenticated, if_neg h.ne_empty, h.verify epoch now,
    if_neg (by simp), hx,
    Option.elim_some, hless now hbefore]
  cases bearer <;> rfl

end Tokens

/-! ## What a step does -/

section Steps

variable {digests : AuthDigests} {lib : SessionLibrary F K} {key : K} {env : AuthEnvironment}
  {s t : AuthServer} {a : AuthAction}

/-- A request that changes the stored configuration. -/
inductive StoreChange (digests : AuthDigests) (s : AuthServer) (a : AuthAction)
    (store : SettingsTable) : Prop
  | same (h : store = s.shared.store)
  | update {config : AuthConfig} {salt : List UInt8} {apiToken : String} {request : AuthUpdate}
      (held : config ∈ s.held)
      (h : authUpdateConfig digests salt apiToken config request s.shared.store = .ok store)
  | wizard {salt : List UInt8} {adminPassword : String}
      (h : setupWizardPassword digests salt adminPassword s.shared.store = .ok store)
  | reset (h : a = .resetWrite) (hkept : s.kept = some store)

/-- All that a step can do. -/
structure AuthStep (digests : AuthDigests) (lib : SessionLibrary F K) (key : K) (s : AuthServer)
    (a : AuthAction) (t : AuthServer) : Prop where
  store : StoreChange digests s a t.shared.store
  value : ∀ v, Readable readAuthConfig t.shared v →
    Readable readAuthConfig s.shared v ∨ v = t.stored
  held : ∀ v ∈ t.held, v ∈ s.held ∨ Readable readAuthConfig s.shared v
  minted : ∀ token ∈ t.minted, token ∈ s.minted ∨
    ∃ v ∈ s.held, ∃ exp, TokenOf lib key token exp v.sessionEpoch
  kept : ∀ settings, t.kept = some settings →
    s.kept = some settings ∨ settings = resetData s.shared.store

/-- After a commit a reader sees what it could see before, or the new settings.
-/
theorem readable_commit {settings : SettingsTable} {v : AuthConfig}
    (h : Readable readAuthConfig (s.commit settings).shared v) :
    Readable readAuthConfig s.shared v ∨ v = (s.commit settings).stored := by
  cases h with
  | stored h => exact Or.inr h
  | cached h => exact Or.inl (.cached h)
  | inHand i h => exact Or.inl (.inHand i h)

/-- A commit is a step that changes the store. -/
theorem authStep_of_commit {settings : SettingsTable} (h : StoreChange digests s a settings) :
    AuthStep digests lib key s a (s.commit settings) where
  store := h
  value _ := readable_commit
  held _ hv := Or.inl hv
  minted _ htoken := Or.inl htoken
  kept _ hkept := Or.inl hkept

/-- A result that has a value is that value. -/
theorem eq_ok_of_toOption {ε α : Type} {result : Except ε α} {x : α}
    (h : result.toOption = some x) :
    result = .ok x := by
  cases result with
  | error _ => cases h
  | ok _ => exact congrArg Except.ok (Option.some.inj h)

/-- Only a commit writes the store. -/
theorem store_of_access {c : CacheAction SettingsTable}
    {shared shared' : CachedStore SettingsTable AuthConfig}
    (hc : ∀ settings, c ≠ .commit settings)
    (h : step readAuthConfig authCacheTtl shared c = some shared') :
    shared'.store = shared.store := by
  unfold step at h
  split at h <;> (try split at h) <;> cases h <;> first | rfl | exact absurd rfl (hc _)

/-- **All that a step does** is one of these. -/
theorem authStep_spec (h : authStep digests lib key env s a = some t) :
    AuthStep digests lib key s a t := by
  cases a with
  | access c =>
      have haccess : (∀ settings, c ≠ .commit settings) ∧ ∃ shared,
          step readAuthConfig authCacheTtl s.shared c = some shared ∧
            { s with shared := shared } = t := by
        cases c <;> first | (cases h; done) | exact ⟨fun _ => nofun, Option.map_eq_some_iff.mp h⟩
      obtain ⟨hc, shared, hstep, rfl⟩ := haccess
      refine ⟨.same (store_of_access hc hstep), fun v hv => ?_, fun _ => Or.inl, fun _ => Or.inl,
        fun _ => Or.inl⟩
      obtain hold | ⟨settings, hcommit, -⟩ := readable_step hstep hv
      · exact Or.inl hold
      · exact absurd hcommit (hc settings)
  | hold i =>
      cases hread : s.shared.reads i <;>
        simp only [authStep, hread, Option.some.injEq, reduceCtorEq] at h
      subst h
      refine ⟨.same rfl, fun _ => Or.inl, fun v hv => ?_, fun _ => Or.inl, fun _ => Or.inl⟩
      refine (List.mem_cons.mp hv).symm.imp_right fun heq => .inHand i ?_
      rw [hread, heq]
      rfl
  | login n password clock =>
      cases hconfig : s.held[n]? <;> simp only [authStep, hconfig, reduceCtorEq] at h
      rename_i config
      split at h
      · split at h
        · rename_i token hmint
          obtain rfl := Option.some.inj h
          refine ⟨.same rfl, fun _ => Or.inl, fun _ =>
            Or.inl, fun other hother => ?_, fun _ => Or.inl⟩
          refine (List.mem_cons.mp hother).symm.imp_right fun heq => ?_
          rw [heq]
          exact ⟨config, List.mem_of_getElem? hconfig, _, tokenOf_of_mint hmint⟩
        · cases h
      · cases h
  | update n salt apiToken request =>
      cases hconfig : s.held[n]? <;> simp only [authStep, hconfig, reduceCtorEq] at h
      obtain ⟨settings, hsettings, rfl⟩ := Option.map_eq_some_iff.mp h
      exact authStep_of_commit
        (.update (List.mem_of_getElem? hconfig) (eq_ok_of_toOption hsettings))
  | wizard salt adminPassword =>
      obtain ⟨settings, hsettings, rfl⟩ := Option.map_eq_some_iff.mp h
      exact authStep_of_commit (.wizard (eq_ok_of_toOption hsettings))
  | resetRead =>
      obtain rfl := Option.some.inj h
      exact ⟨.same rfl, fun _ => Or.inl, fun _ => Or.inl, fun _ => Or.inl,
        fun _ hkept => Or.inr (Option.some.inj hkept).symm⟩
  | resetWrite =>
      obtain ⟨settings, hkept, rfl⟩ := Option.map_eq_some_iff.mp h
      exact { authStep_of_commit (StoreChange.reset rfl hkept) with kept := nofun }
  | restart =>
      obtain rfl := Option.some.inj h
      have hquiet : Quiet (AuthServer.start s.shared.store s.minted).shared := ⟨rfl, fun _ => rfl⟩
      exact ⟨.same rfl, fun v hv => Or.inr (readable_of_quiet hquiet hv), nofun, fun _ =>
        Or.inl, nofun⟩

/-- **One step** takes no session back to life: the epoch does not fall. -/
theorem epoch_le_of_step (h : authStep digests lib key env s a = some t)
    (hreset : ResetUndisturbed s a) :
    s.stored.sessionEpoch ≤ t.stored.sessionEpoch := by
  cases (authStep_spec h).store with
  | same h => exact le_of_eq (congrArg (fun store => (readAuthConfig store).sessionEpoch) h.symm)
  | update _ h => exact sessionEpoch_le_of_update h
  | wizard h => exact sessionEpoch_le_of_wizard h
  | reset ha hkept => exact le_of_eq (congrArg AuthConfig.sessionEpoch (hreset ha _ hkept).symm)

/-- The steps in which no reset undoes a change. -/
abbrev AuthReaches (digests : AuthDigests) (lib : SessionLibrary F K) (key : K)
    (env : AuthEnvironment) :
    AuthServer → AuthServer → Prop :=
  Reaches (authStep digests lib key env) ResetUndisturbed

/-- Nor do any number of steps. -/
theorem epoch_le_of_reaches (h : AuthReaches digests lib key env s t) :
    s.stored.sessionEpoch ≤ t.stored.sessionEpoch := by
  induction h with
  | refl => exact le_rfl
  | tail _ hreset hstep ih => exact ih.trans (epoch_le_of_step hstep hreset)

/-! ## Revocation -/

/-- Nothing is newer than what is stored. -/
structure NotAhead (lib : SessionLibrary F K) (key : K) (s : AuthServer) : Prop where
  read : ∀ v, Readable readAuthConfig s.shared v → v.sessionEpoch ≤ s.stored.sessionEpoch
  held : ∀ v ∈ s.held, v.sessionEpoch ≤ s.stored.sessionEpoch
  minted : ∀ token ∈ s.minted, ∃ exp epoch, TokenOf lib key token exp epoch ∧
    epoch ≤ s.stored.sessionEpoch

/-- **One step** keeps every token at an epoch that has been. -/
theorem notAhead_step (hs : NotAhead lib key s) (hreset : ResetUndisturbed s a)
    (h : authStep digests lib key env s a = some t) : NotAhead lib key t := by
  have hle := epoch_le_of_step h hreset
  have hspec := authStep_spec h
  refine ⟨fun v hv => ?_, fun v hv => ?_, fun token htoken => ?_⟩
  · obtain hold | rfl := hspec.value v hv
    · exact (hs.read v hold).trans hle
    · exact le_rfl
  · exact ((hspec.held v hv).elim (hs.held v) (hs.read v)).trans hle
  · obtain hold | ⟨v, hv, exp, htoken⟩ := hspec.minted token htoken
    · obtain ⟨exp, epoch, htoken, hepoch⟩ := hs.minted token hold
      exact ⟨exp, epoch, htoken, hepoch.trans hle⟩
    · exact ⟨exp, v.sessionEpoch, htoken, (hs.held v hv).trans hle⟩

/-- Nobody reads an epoch from before. -/
def PastEpoch (epoch : Int) (s : AuthServer) : Prop :=
  ∀ v, Readable readAuthConfig s.shared v → epoch < v.sessionEpoch

/-- **One step** leaves an epoch that is past. -/
theorem pastEpoch_step {epoch : Int} (hs : PastEpoch epoch s) (hreset : ResetUndisturbed s a)
    (h : authStep digests lib key env s a = some t) : PastEpoch epoch t := by
  intro v hv
  obtain hold | rfl := (authStep_spec h).value v hv
  · exact hs v hold
  · exact (hs _ (.stored rfl)).trans_le (epoch_le_of_step h hreset)

/-- A new password is a new epoch. -/
theorem epoch_lt_of_update {n : ℕ} {salt : List UInt8} {apiToken : String} {request : AuthUpdate}
    (hpassword : request.password ≠ "")
    (h : authStep digests lib key env s (.update n salt apiToken request) = some t) :
    s.stored.sessionEpoch < t.stored.sessionEpoch := by
  cases hconfig : s.held[n]? <;> simp only [authStep, hconfig, reduceCtorEq] at h
  obtain ⟨settings, hsettings, rfl⟩ := Option.map_eq_some_iff.mp h
  rw [AuthServer.stored_commit, (authUpdateConfig_spec (eq_ok_of_toOption hsettings)).2,
    AuthServer.stored]
  simp [hpassword]

/-- **A new password ends every session.**  Whatever the threads do before and
after, once the cache is empty and nobody is reading, every token that was sent
out before the change is refused for good. -/
theorem session_revoked {settings : SettingsTable} {tokens : List String}
    {before changed quiet later : AuthServer}
    {n : ℕ} {salt : List UInt8} {apiToken : String} {request : AuthUpdate}
    (htokens : ∀ token ∈ tokens, ∃ exp epoch, TokenOf lib key token exp epoch ∧
      epoch ≤ (readAuthConfig settings).sessionEpoch)
    (hbefore : AuthReaches digests lib key env (AuthServer.start settings tokens) before)
    (hpassword : request.password ≠ "")
    (hupdate : authStep digests lib key env before (.update n salt apiToken request) = some changed)
    (hchanged : AuthReaches digests lib key env changed quiet) (hquiet : Quiet quiet.shared)
    (hlater : AuthReaches digests lib key env quiet later)
    {token : String} (hsent : token ∈ before.minted) {first second : AuthConfig}
    (hsecond : Readable readAuthConfig later.shared second) (now : F) {path authHeader : String}
    (hpath : isAuthProtectedPath path = true) (hrequired : authRequired env first = true)
    (hbearer : bearerAccepted digests second authHeader = false) :
    enforceAuth digests lib key env first second now path token authHeader = .ok .unauthorized := by
  have hstart : NotAhead lib key (AuthServer.start settings tokens) := by
    have hnone : Quiet (AuthServer.start settings tokens).shared := ⟨rfl, fun _ => rfl⟩
    exact ⟨fun v hv => le_of_eq (congrArg AuthConfig.sessionEpoch (readable_of_quiet hnone hv)),
      nofun, htokens⟩
  have hinv : NotAhead lib key before := hbefore.invariant hstart fun _ _ _ => notAhead_step
  obtain ⟨exp, epoch, htoken, hepoch⟩ := hinv.minted token hsent
  have hraised : epoch < changed.stored.sessionEpoch :=
    hepoch.trans_lt (epoch_lt_of_update hpassword hupdate)
  have hstored : epoch < quiet.stored.sessionEpoch :=
    hraised.trans_le (epoch_le_of_reaches hchanged)
  have hpast : PastEpoch epoch quiet := by
    intro v hv
    rw [readable_of_quiet hquiet hv]
    exact hstored
  have hnow : PastEpoch epoch later := hlater.invariant hpast fun _ _ _ => pastEpoch_step
  unfold enforceAuth
  rw [hpath, hrequired, htoken.refused (hnow second hsecond).ne, hbearer]
  rfl

/-- A handler reads the configuration and awaits. -/
theorem exists_held (settings : SettingsTable) (tokens : List String) :
    ∃ before, AuthReaches digests lib key env (AuthServer.start settings tokens) before ∧
      before.held = [readAuthConfig settings] ∧ before.shared.store = settings ∧
        before.minted = tokens := by
  have hnot : ∀ {s : AuthServer} {a : AuthAction}, a ≠ .resetWrite → ResetUndisturbed s a :=
    fun hne heq => absurd heq hne
  have hloaded : AuthReaches digests lib key env (AuthServer.start settings tokens) _ :=
    .tail (.tail (.tail .refl (a := .access (.start 0)) (hnot nofun) rfl)
      (a := .access (.look 0)) (hnot nofun) rfl) (a := .access (.load 0)) (hnot nofun) rfl
  have hheld : AuthReaches digests lib key env (AuthServer.start settings tokens) _ :=
    .tail (.tail (.tail hloaded (a := .access (.keep 0)) (hnot nofun) rfl)
      (a := .access (.stamp 0)) (hnot nofun) rfl) (a := .hold 0) (hnot nofun) rfl
  exact ⟨_, hheld, rfl, rfl, rfl⟩

/-! ## Nobody is locked out -/

/-- The stored hash is that of a password that somebody set. -/
def HashOfPassword (digests : AuthDigests) (config : AuthConfig) : Prop :=
  config.passwordHash = "" ∨
    ∃ salt password, 8 ≤ password.length ∧ config.passwordHash = digests.hashPassword salt password

/-- A configuration request stores the hash of a password, or none. -/
theorem hashOfPassword_of_update {config : AuthConfig} {salt : List UInt8} {apiToken : String}
    {request : AuthUpdate} {settings settings' : SettingsTable}
    (hs : HashOfPassword digests (readAuthConfig settings))
    (h : authUpdateConfig digests salt apiToken config request settings = .ok settings') :
    HashOfPassword digests (readAuthConfig settings') := by
  have hlength : request.password ≠ "" → 8 ≤ request.password.length := by
    intro hset
    by_contra hshort
    rw [authUpdateConfig, if_pos ⟨hset, not_le.mp hshort⟩] at h
    cases h
  rw [HashOfPassword, (authUpdateConfig_spec h).2]
  by_cases hset : request.password ≠ ""
  · exact Or.inr ⟨salt, request.password, hlength hset, if_pos hset⟩
  · simp only [if_neg hset]
    exact hs

/-- So does the wizard. -/
theorem hashOfPassword_of_wizard {salt : List UInt8} {adminPassword : String}
    {settings settings' : SettingsTable} (hs : HashOfPassword digests (readAuthConfig settings))
    (h : setupWizardPassword digests salt adminPassword settings = .ok settings') :
    HashOfPassword digests (readAuthConfig settings') := by
  unfold setupWizardPassword at h
  split at h
  · obtain rfl := Except.ok.inj h
    exact hs
  · split at h
    · cases h
    · rename_i hlength
      obtain rfl := Except.ok.inj h
      refine Or.inr ⟨salt, adminPassword, not_lt.mp hlength, ?_⟩
      rw [readAuthConfig_storeAuthEnabled,
        readAuthConfig_storePasswordHash (strip_hashPassword salt adminPassword)]

/-- Every configuration there is has the hash of a password, or none. -/
structure HashesOfPasswords (digests : AuthDigests) (s : AuthServer) : Prop where
  read : ∀ v, Readable readAuthConfig s.shared v → HashOfPassword digests v
  kept : ∀ settings, s.kept = some settings → HashOfPassword digests (readAuthConfig settings)

/-- **One step** keeps every stored hash that of a password. -/
theorem hashesOfPasswords_step (hs : HashesOfPasswords digests s)
    (h : authStep digests lib key env s a = some t) : HashesOfPasswords digests t := by
  have hspec := authStep_spec h
  have hold : HashOfPassword digests (readAuthConfig s.shared.store) := hs.read _ (.stored rfl)
  have hstored : HashOfPassword digests t.stored := by
    rw [AuthServer.stored]
    cases hspec.store with
    | same h => rwa [h]
    | update _ h => exact hashOfPassword_of_update hold h
    | wizard h => exact hashOfPassword_of_wizard hold h
    | reset _ hkept => exact hs.kept _ hkept
  refine ⟨fun v hv => ?_, fun settings hkept => ?_⟩
  · obtain hv | rfl := hspec.value v hv
    · exact hs.read v hv
    · exact hstored
  · obtain hkept | rfl := hspec.kept settings hkept
    · exact hs.kept settings hkept
    · rwa [readAuthConfig_resetData]

/-- A login with the right password. -/
theorem loginAccepts_of_hashOfPassword {config : AuthConfig} (h : HashOfPassword digests config)
    (hset : config.passwordSet = true) :
    ∃ password, loginAccepts digests env config password = true := by
  obtain hnone | ⟨salt, password, -, hhash⟩ := h
  · exact absurd hnone (passwordSet_iff.mp hset)
  · refine ⟨password, ?_⟩
    rw [loginAccepts, hset, hhash, verifyPassword_hashPassword, beq_self_eq_true]
    rfl

/-- The recovery password is always accepted. -/
theorem loginAccepts_recovery {config : AuthConfig} (h : strip env.authRecoveryPassword ≠ "") :
    loginAccepts digests env config (strip env.authRecoveryPassword) = true := by
  simp [loginAccepts, h]

/-- **Nobody is locked out.**  Whatever the requests and resets do, in any
order: when a request is held up, some password is taken, and the token it gets
is let through until it expires. -/
theorem not_locked_out {settings : SettingsTable} {tokens : List String} {s : AuthServer}
    (hstart : HashOfPassword digests (readAuthConfig settings))
    (hreach : Reachable (authStep digests lib key env) (AuthServer.start settings tokens) s)
    {config : AuthConfig} (hread : Readable readAuthConfig s.shared config)
    (hrequired : authRequired env config = true) :
    ∃ password, loginAccepts digests env config password = true ∧
      ∀ (clock : Int) (token : String) (first : AuthConfig) (now : F) (path authHeader : String),
        lib.mintSessionToken clock (sessionTtlSeconds env) key config.sessionEpoch = .ok token →
          (clock + sessionTtlSeconds env).natAbs ≤ 2 ^ 53 →
            lib.beforeInt now (clock + sessionTtlSeconds env) = true →
              enforceAuth digests lib key env first config now path token authHeader =
                .ok .passedOn := by
  have hinit : HashesOfPasswords digests (AuthServer.start settings tokens) := by
    have hnone : Quiet (AuthServer.start settings tokens).shared := ⟨rfl, fun _ => rfl⟩
    refine ⟨fun v hv => ?_, nofun⟩
    rw [readable_of_quiet hnone hv]
    exact hstart
  have hinv : HashesOfPasswords digests s :=
    hreach.invariant hinit fun _ _ _ hs _ h => hashesOfPasswords_step hs h
  have hpassword : ∃ password, loginAccepts digests env config password = true := by
    unfold authRequired at hrequired
    simp only [] at hrequired
    split at hrequired
    · cases hrequired
    · split at hrequired
      · obtain hset | hrecovery := Bool.or_eq_true_iff.mp hrequired
        · exact loginAccepts_of_hashOfPassword (hinv.read config hread) hset
        · exact ⟨_, loginAccepts_recovery (of_decide_eq_true hrecovery)⟩
      · exact loginAccepts_of_hashOfPassword (hinv.read config hread)
          (Bool.and_eq_true_iff.mp hrequired).2
  obtain ⟨password, haccepts⟩ := hpassword
  refine ⟨password, haccepts, fun clock token first now path authHeader hmint hsmall hbefore => ?_⟩
  unfold enforceAuth
  rw [(tokenOf_of_mint hmint).admitted hsmall hbefore]
  split_ifs <;> rfl

end Steps

/-! ## An example -/

/-- Digests that hide nothing. -/
def plainDigests : AuthDigests where
  scrypt password salt := salt ++ password
  sha256 bytes := bytes

/-- Nothing set in the environment. -/
def plainEnvironment : AuthEnvironment where
  authEnabled := ""
  authRecoveryPassword := ""
  authSessionTtlHours := 12

/-- The first password, and authentication on. -/
def firstPassword : AuthUpdate where
  password := "correct horse"
  enabled := some true
  rotateApiToken := false
  revokeApiToken := false

/-- A token from before the first password. -/
theorem session_revoked_firstPassword :
    ∃ later, Reachable (authStep plainDigests plainLibrary () plainEnvironment)
        (AuthServer.start KeyedTable.empty [plainLibrary.tokenText () 100 (some 0)]) later ∧
      enforceAuth plainDigests plainLibrary
        () plainEnvironment later.stored later.stored 50 "/api/status"
        (plainLibrary.tokenText () 100 (some 0)) "" = .ok .unauthorized := by
  have htoken : TokenOf plainLibrary () (plainLibrary.tokenText () 100 (some 0)) 100 0 :=
    ⟨rfl, by decide, by decide⟩
  have hempty : (readAuthConfig KeyedTable.empty).sessionEpoch = 0 := by decide +kernel
  obtain ⟨before, hbefore, hheld, hstore, hminted⟩ : ∃ before,
      AuthReaches plainDigests plainLibrary ()
      plainEnvironment
        (AuthServer.start KeyedTable.empty [plainLibrary.tokenText () 100 (some 0)]) before ∧
        before.held = [readAuthConfig KeyedTable.empty] ∧ before.shared.store = KeyedTable.empty ∧
          before.minted = [plainLibrary.tokenText () 100 (some 0)] :=
    exists_held KeyedTable.empty [plainLibrary.tokenText () 100 (some 0)]
  obtain ⟨settings, hsettings⟩ : ∃ settings, authUpdateConfig plainDigests [] ""
      (readAuthConfig KeyedTable.empty) firstPassword KeyedTable.empty = .ok settings := ⟨_, rfl⟩
  have hupdate : authStep plainDigests plainLibrary () plainEnvironment before
      (.update 0 [] "" firstPassword) = some (before.commit settings) := by
    simp [authStep, hheld, hstore, hsettings, Except.toOption]
  have hrestart : AuthReaches plainDigests plainLibrary () plainEnvironment (before.commit settings)
      (AuthServer.start settings before.minted) :=
    .tail .refl (a := .restart) (fun h => nomatch h) rfl
  have hchanged : authRequired plainEnvironment (readAuthConfig settings) = true := by
    rw [(authUpdateConfig_spec hsettings).2]
    decide +kernel
  have hbearer : bearerAccepted plainDigests (readAuthConfig settings) "" = false := by
    rw [bearerAccepted, if_neg (by decide +kernel)]
  refine ⟨_, ((hbefore.mono fun _ _ _ => trivial).tail trivial hupdate).trans
    (hrestart.mono fun _ _ _ => trivial), ?_⟩
  refine session_revoked ?_ hbefore (by decide) hupdate hrestart ⟨rfl, fun _ => rfl⟩ .refl
    (hminted ▸ List.mem_cons_self) (.stored rfl) 50 (by decide +kernel) hchanged hbearer
  intro token hmem
  obtain rfl := List.mem_singleton.mp hmem
  exact ⟨100, 0, htoken, le_of_eq hempty.symm⟩

/-- Authentication forced on. -/
def forcedEnvironment : AuthEnvironment where
  authEnabled := "on"
  authRecoveryPassword := ""
  authSessionTtlHours := 12

/-- The state after the first password and a data reset. -/
theorem exists_afterReset :
    ∃ s, Reachable (authStep plainDigests plainLibrary () forcedEnvironment)
        (AuthServer.start KeyedTable.empty []) s ∧
      s.stored.passwordSet = true ∧ s.stored.sessionEpoch = 1 := by
  obtain ⟨before, hbefore, hheld, hstore, -⟩ : ∃ before, AuthReaches plainDigests plainLibrary ()
      forcedEnvironment (AuthServer.start KeyedTable.empty []) before ∧
        before.held = [readAuthConfig KeyedTable.empty] ∧ before.shared.store = KeyedTable.empty ∧
          before.minted = [] :=
    exists_held KeyedTable.empty []
  obtain ⟨settings, hsettings⟩ : ∃ settings, authUpdateConfig plainDigests [] ""
      (readAuthConfig KeyedTable.empty) firstPassword KeyedTable.empty = .ok settings := ⟨_, rfl⟩
  have hupdate : authStep plainDigests plainLibrary () forcedEnvironment before
      (.update 0 [] "" firstPassword) = some (before.commit settings) := by
    simp [authStep, hheld, hstore, hsettings, Except.toOption]
  have hupdated := (hbefore.mono fun _ _ _ => trivial).tail (C := fun _ _ => True) trivial hupdate
  have hreset := (hupdated.tail (a := .resetRead) trivial rfl).tail (a := .resetWrite) trivial rfl
  refine ⟨_, hreset, ?_, ?_⟩
  · change (readAuthConfig (resetData settings)).passwordSet = true
    rw [readAuthConfig_resetData, (authUpdateConfig_spec hsettings).2]
    decide +kernel
  · change (readAuthConfig (resetData settings)).sessionEpoch = 1
    rw [readAuthConfig_resetData, (authUpdateConfig_spec hsettings).2]
    decide +kernel

/-- After a reset over an earlier password, with a session that is let through.
-/
theorem not_locked_out_afterReset :
    ∃ s password token, Reachable (authStep plainDigests plainLibrary () forcedEnvironment)
        (AuthServer.start KeyedTable.empty []) s ∧ s.stored.passwordSet = true ∧
      loginAccepts plainDigests forcedEnvironment s.stored password = true ∧
      plainLibrary.mintSessionToken 100 (sessionTtlSeconds forcedEnvironment) ()
        s.stored.sessionEpoch = .ok token ∧
      enforceAuth plainDigests plainLibrary () forcedEnvironment s.stored s.stored 50 "/api/status"
        token "" = .ok .passedOn := by
  obtain ⟨s, hreach, hset, hepoch⟩ := exists_afterReset
  have hstart : HashOfPassword plainDigests (readAuthConfig KeyedTable.empty) :=
    Or.inl (by decide +kernel)
  have hrequired : authRequired forcedEnvironment s.stored = true := by
    have hoff : authFalseValues.contains (strip forcedEnvironment.authEnabled).toLower = false := by
      decide +kernel
    have hon : authTrueValues.contains (strip forcedEnvironment.authEnabled).toLower = true := by
      decide +kernel
    rw [authRequired, hoff, hon, hset]
    rfl
  have hmint : plainLibrary.mintSessionToken 100 (sessionTtlSeconds forcedEnvironment) ()
      s.stored.sessionEpoch = .ok (plainLibrary.tokenText ()
        (100 + sessionTtlSeconds forcedEnvironment) (some s.stored.sessionEpoch)) := by
    refine SessionLibrary.mintSessionToken_eq_ok_iff.mpr ⟨by decide, ?_, rfl⟩
    rw [hepoch]
    decide
  obtain ⟨password, haccepts, hpassed⟩ := not_locked_out hstart hreach (.stored rfl) hrequired
  exact ⟨s, password, _, hreach, hset, haccepts, hmint,
    hpassed 100 _ s.stored 50 "/api/status" "" hmint (by decide) (by decide +kernel)⟩

end Nebularr
