import Nebularr.IpAddress
import Nebularr.LoginLimiter
import Nebularr.PythonValues

/-!
# The key of a client

`client_key_for_request`, which tells the clients of the login rate limiter
apart: the address of the peer, or behind a trusted proxy the last address of
`X-Forwarded-For` that is no proxy's.  What stands left of that one in the
header, a client may have written itself.
-/

namespace Nebularr

/-! ## The source -/

/-- `_parse_trusted_proxies`: what is no network is left out. -/
def parseTrustedProxies (raw : String) : List IpNetwork :=
  (cleaned (splitCommas raw)).filterMap ipNetwork

/-- `_ip_in_networks`. -/
def ipInNetworks (value : String) (networks : List IpNetwork) : Bool :=
  match ipAddress value with
  | some addr => networks.any fun net => net.holds addr
  | none => false

/-- What of a request its key depends on: `request.client.host` and the header
`x-forwarded-for`. -/
structure ForwardedRequest where
  client : Option String
  forwardedFor : Option String

/-- `request.client.host if request.client else "unknown"`. -/
def peerOf (client : Option String) : String := client.getD "unknown"

/-- The hops that a header names, the last one last. -/
def hopsOf (forwarded : String) : List String := cleaned (splitCommas forwarded)

/-- `client_key_for_request`. -/
def clientKeyForRequest (request : ForwardedRequest) (trustedProxies : String) : String :=
  let peer := peerOf request.client
  let networks := parseTrustedProxies trustedProxies
  if networks.isEmpty || !ipInNetworks peer networks then peer
  else
    let hops := hopsOf (request.forwardedFor.getD "")
    -- the first untrusted hop from the right
    (hops.reverse.find? fun hop => !ipInNetworks hop networks).getD peer

/-! ## Whom a configuration trusts -/

/-- A text is the address of a trusted proxy: some network of the configuration
covers it. -/
def TrustedBy (trustedProxies : String) (text : String) : Prop :=
  ∃ addr, ipAddress text = some addr ∧ ∃ net ∈ parseTrustedProxies trustedProxies, net.Covers addr

theorem ipInNetworks_iff {trustedProxies text : String} :
    ipInNetworks text (parseTrustedProxies trustedProxies) = true ↔
      TrustedBy trustedProxies text := by
  unfold ipInNetworks TrustedBy
  cases ipAddress text with
  | none => exact iff_of_false Bool.false_ne_true fun ⟨_, h, _⟩ => nomatch h
  | some addr =>
      rw [List.any_eq_true]
      constructor
      · intro h
        obtain ⟨net, hnet, hholds⟩ := h
        exact ⟨addr, rfl, net, hnet, IpNetwork.holds_iff.mp hholds⟩
      · intro h
        obtain ⟨found, hfound, net, hnet, hcovers⟩ := h
        obtain rfl := Option.some.inj hfound
        exact ⟨net, hnet, IpNetwork.holds_iff.mpr hcovers⟩

instance (trustedProxies text : String) : Decidable (TrustedBy trustedProxies text) :=
  decidable_of_iff _ ipInNetworks_iff

/-- The last hop that is not a trusted proxy. -/
def LastUntrusted (trustedProxies : String) (hops : List String) (hop : String) : Prop :=
  ∃ before after, hops = before ++ hop :: after ∧ ¬ TrustedBy trustedProxies hop ∧
    ∀ later ∈ after, TrustedBy trustedProxies later

/-! ## The walk from the right -/

section Walk

variable {α : Type} {p : α → Bool} {l before after : List α} {a : α}

theorem find?_reverse_eq_some_iff :
    l.reverse.find? p = some a ↔
      p a = true ∧ ∃ before after, l = before ++ a :: after ∧ ∀ b ∈ after, p b = false := by
  rw [List.find?_eq_some_iff_append]
  refine and_congr_right fun _ => ?_
  constructor
  · intro h
    obtain ⟨after, before, hsplit, hafter⟩ := h
    refine ⟨before.reverse, after.reverse, ?_, fun b hb => ?_⟩
    · rw [← List.reverse_reverse l, hsplit]
      simp
    · simpa using hafter b (List.mem_reverse.mp hb)
  · intro h
    obtain ⟨before, after, hsplit, hafter⟩ := h
    refine ⟨after.reverse, before.reverse, ?_, fun b hb => ?_⟩
    · rw [hsplit]
      simp
    · simpa using hafter b (List.mem_reverse.mp hb)

/-- What the walk finds, it finds whatever stands further left. -/
theorem find?_reverse_append (l : List α) {l' : List α} (h : l'.reverse.find? p = some a) :
    (l ++ l').reverse.find? p = some a := by
  rw [List.reverse_append, List.find?_append, h, Option.some_or]

end Walk

theorem find?_untrusted_iff {trustedProxies : String} {hops : List String} {hop : String} :
    hops.reverse.find? (fun hop => !ipInNetworks hop (parseTrustedProxies trustedProxies)) =
      some hop ↔
      LastUntrusted trustedProxies hops hop := by
  rw [find?_reverse_eq_some_iff, Bool.not_eq_true', ← Bool.not_eq_true, ipInNetworks_iff]
  unfold LastUntrusted
  simp only [Bool.not_eq_false', ipInNetworks_iff]
  constructor
  · intro h
    obtain ⟨huntrusted, before, after, hsplit, hafter⟩ := h
    exact ⟨before, after, hsplit, huntrusted, hafter⟩
  · intro h
    obtain ⟨before, after, hsplit, huntrusted, hafter⟩ := h
    exact ⟨huntrusted, before, after, hsplit, hafter⟩

/-- Some hop is not a trusted proxy, so there is a last one. -/
theorem exists_lastUntrusted {trustedProxies : String} {hops : List String}
    (h : ∃ hop ∈ hops, ¬ TrustedBy trustedProxies hop) :
    ∃ hop, LastUntrusted trustedProxies hops hop := by
  obtain ⟨hop, hmem, huntrusted⟩ := h
  have hfound : (hops.reverse.find? fun hop =>
      !ipInNetworks hop (parseTrustedProxies trustedProxies)).isSome = true := by
    rw [List.find?_isSome]
    refine ⟨hop, List.mem_reverse.mpr hmem, ?_⟩
    rw [← ipInNetworks_iff, Bool.not_eq_true] at huntrusted
    rw [huntrusted]
    rfl
  obtain ⟨last, hlast⟩ := Option.isSome_iff_exists.mp hfound
  exact ⟨last, find?_untrusted_iff.mp hlast⟩

/-! ## What the proxies append -/

theorem splitCommas_append (p s : String) :
    splitCommas (p ++ "," ++ s) = splitCommas p ++ splitCommas s := by
  have hsplit : (p ++ "," ++ s).toList = p.toList ++ ',' :: s.toList := by simp
  rw [splitCommas, hsplit, List.splitOnP_append_cons _ _ (by decide), List.map_append]
  rfl

theorem hopsOf_append (p s : String) : hopsOf (p ++ "," ++ s) = hopsOf p ++ hopsOf s := by
  rw [hopsOf, splitCommas_append, cleaned, List.map_append, List.filter_append]
  rfl

section Key

variable {trustedProxies : String} {client forwarded : Option String}

/-- The key of a peer that is no trusted proxy. -/
theorem clientKeyForRequest_of_not_trusted (h : ¬ TrustedBy trustedProxies (peerOf client)) :
    clientKeyForRequest ⟨client, forwarded⟩ trustedProxies = peerOf client := by
  rw [← ipInNetworks_iff, Bool.not_eq_true] at h
  simp [clientKeyForRequest, h]

/-- The key behind a trusted proxy. -/
theorem clientKeyForRequest_of_trusted (h : TrustedBy trustedProxies (peerOf client)) :
    clientKeyForRequest ⟨client, forwarded⟩ trustedProxies =
      ((hopsOf (forwarded.getD "")).reverse.find? fun hop =>
        !ipInNetworks hop (parseTrustedProxies trustedProxies)).getD (peerOf client) := by
  have hsome : (parseTrustedProxies trustedProxies).isEmpty = false := by
    obtain ⟨_, _, net, hnet, _⟩ := h
    exact List.isEmpty_eq_false_iff_exists_mem.mpr ⟨net, hnet⟩
  rw [← ipInNetworks_iff] at h
  simp [clientKeyForRequest, h, hsome]

/-- Behind a trusted proxy only what the proxies append counts. -/
theorem clientKeyForRequest_append {s hop : String} (h : TrustedBy trustedProxies (peerOf client))
    (hlast : LastUntrusted trustedProxies (hopsOf s) hop) (p : String) :
    clientKeyForRequest ⟨client, some (p ++ "," ++ s)⟩ trustedProxies = hop := by
  have hfound := find?_reverse_append (hopsOf p) (find?_untrusted_iff.mpr hlast)
  rw [clientKeyForRequest_of_trusted h, Option.getD_some, hopsOf_append, hfound, Option.getD_some]

end Key

/-- **No client can choose its key.**  Behind trusted proxies it is the last
untrusted hop of what they appended, whatever the client wrote before that; a
peer that is no trusted proxy is its own key, whatever it wrote. -/
theorem clientKeyForRequest_unspoofable (trustedProxies : String) (client : Option String) :
    (TrustedBy trustedProxies (peerOf client) →
      ∀ s, (∃ hop ∈ hopsOf s, ¬ TrustedBy trustedProxies hop) →
        ∃ hop, LastUntrusted trustedProxies (hopsOf s) hop ∧
          ∀ p, clientKeyForRequest ⟨client, some (p ++ "," ++ s)⟩ trustedProxies = hop) ∧
      (¬ TrustedBy trustedProxies (peerOf client) →
        ∀ forwarded, clientKeyForRequest ⟨client, forwarded⟩ trustedProxies = peerOf client) := by
  constructor
  · intro htrusted s huntrusted
    obtain ⟨hop, hlast⟩ := exists_lastUntrusted huntrusted
    exact ⟨hop, hlast, clientKeyForRequest_append htrusted hlast⟩
  · intro huntrusted forwarded
    exact clientKeyForRequest_of_not_trusted huntrusted

/-- A client behind two proxies, which has claimed to be another one. -/
theorem clientKeyForRequest_behind_two_proxies :
    clientKeyForRequest ⟨some "172.18.0.2",
        some ("203.0.113.7" ++ "," ++ "198.51.100.4, 172.18.0.3, 172.18.0.2")⟩ "172.18.0.0/16" =
      "198.51.100.4" ∧
    clientKeyForRequest ⟨some "203.0.113.9", some "10.0.0.1"⟩ "172.18.0.0/16" = "203.0.113.9" := by
  have hlast : ∀ hop,
      LastUntrusted "172.18.0.0/16" (hopsOf "198.51.100.4, 172.18.0.3, 172.18.0.2") hop →
      hop = "198.51.100.4" := by
    intro hop h
    have hwalk : (hopsOf "198.51.100.4, 172.18.0.3, 172.18.0.2").reverse.find? (fun hop =>
        !ipInNetworks hop (parseTrustedProxies "172.18.0.0/16")) = some "198.51.100.4" := by
      decide +kernel
    exact Option.some.inj ((find?_untrusted_iff.mpr h).symm.trans hwalk)
  constructor
  · obtain ⟨hop, hhop, hkey⟩ :=
      (clientKeyForRequest_unspoofable "172.18.0.0/16" (some "172.18.0.2")).1
      (by decide +kernel) "198.51.100.4, 172.18.0.3, 172.18.0.2" (by decide +kernel)
    rw [hkey, hlast hop hhop]
  · exact (clientKeyForRequest_unspoofable "172.18.0.0/16" (some "203.0.113.9")).2
      (by decide +kernel) _

/-! ## Guessing behind a forged header -/

/-- Failed logins of one client of the proxies: when each fails, and what the
client writes before what they append. -/
def failedLogins (limiter : LoginRateLimiter) (trustedProxies : String) (client : Option String)
    (s : String)
    (attempts : List (ℕ × String)) (m : FailureMap String) : FailureMap String :=
  attempts.foldl (fun m attempt => limiter.registerFailure attempt.1 m
    (clientKeyForRequest ⟨client, some (attempt.2 ++ "," ++ s)⟩ trustedProxies)) m

section Guessing

variable {limiter : LoginRateLimiter} {trustedProxies s hop : String} {client : Option String}
  {attempts : List (ℕ × String)} {m : FailureMap String}

theorem failedLogins_eq (h : TrustedBy trustedProxies (peerOf client))
    (hlast : LastUntrusted trustedProxies (hopsOf s) hop) :
    failedLogins limiter trustedProxies client s attempts m =
      limiter.failuresOf hop (attempts.map Prod.fst) m := by
  rw [LoginRateLimiter.failuresOf, List.foldl_map, failedLogins]
  simp only [clientKeyForRequest_append h hlast]

/-- **Guesses are counted together**, whatever is written before each: often
enough within a lockout's time, the client is locked out whatever it writes next. -/
theorem isLocked_failedLogins {first now : ℕ} (h : TrustedBy trustedProxies (peerOf client))
    (hlast : LastUntrusted trustedProxies (hopsOf s) hop)
    (hactive : now < first + limiter.lockoutSeconds)
    (htimes : ∀ attempt ∈ attempts, first ≤ attempt.1 ∧ attempt.1 ≤ now)
    (hroom : m.size < failureMapBound)
    (hne : attempts ≠ []) (henough : limiter.maxFailures ≤ attempts.length) (p : String) :
    limiter.isLocked now (failedLogins limiter trustedProxies client s attempts m)
      (clientKeyForRequest ⟨client, some (p ++ "," ++ s)⟩ trustedProxies) = true := by
  rw [failedLogins_eq h hlast, clientKeyForRequest_append h hlast]
  apply LoginRateLimiter.isLocked_failuresOf hactive _ hroom
  · simpa using hne
  · simpa using henough
  · intro time htime
    obtain ⟨attempt, hattempt, rfl⟩ := List.mem_map.mp htime
    exact htimes attempt hattempt

end Guessing

end Nebularr
