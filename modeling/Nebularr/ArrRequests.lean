import Mathlib.Algebra.Order.Ring.Int
import Mathlib.Algebra.Order.Ring.Nat
import Mathlib.Data.Nat.Find
import Nebularr.ArrClient
import Nebularr.AttemptLoop
import Nebularr.PythonText

/-!
# Requests to an Arr

`_request` tries a call again while the instance is out of reach, overloaded or
broken, and raises with the last error.  What it makes of a call is what it makes
of one reply: the first that is not transient, or the last it asks for
(`request_settles`).  So an outage never reads as a deletion (`missing_iff`).
-/

namespace Nebularr

/-- A response, as far as it is read; `json` is `none` where `resp.json()` raises. -/
structure HttpResponse (J : Type) where
  statusCode : ℕ
  reasonPhrase : String := ""
  contentType : String := ""
  contentLength : ℕ := 0
  text : String := ""
  json : Option J := none
deriving DecidableEq, Repr

/-- What comes of one attempt. -/
inductive Reply (J : Type)
  | answered (resp : HttpResponse J)
  | raised (text typeName : String)
deriving DecidableEq, Repr

/-- `last_err`. -/
inductive HttpError
  | status (code : ℕ) (text reasonPhrase : String)
  | other (text typeName : String)
deriving DecidableEq, Repr

/-- `_summarize_arr_http_error`. -/
def summarizeArrHttpError : HttpError → String
  | .status code text reasonPhrase =>
      let stripped := strip text
      let body := if 400 < stripped.length then String.ofList (stripped.toList.take 400) ++ "..."
        else stripped
      if body ≠ "" then "HTTP " ++ toString code ++ " " ++ body
      else "HTTP " ++ toString code ++ " " ++ reasonPhrase
  | .other text typeName => if text ≠ "" then text else typeName

/-- `_http_status_of` what `_request` raises. -/
def HttpError.status? : HttpError → Option ℕ
  | .status code _ _ => some code
  | .other _ _ => none

/-- A client and a call it makes.  `repr` writes a text as Python does, and
`empty` is the object `{}`. -/
structure ArrRequest (J : Type) where
  source : String
  method : String
  path : String
  retryAttempts : Int
  repr : String → String
  empty : J

/-- What a caller sees; `result` is `none` where the assertion fails that there
is an error. -/
structure Requested (J : Type) where
  result : Option (Except SyncError J)
  /-- How often the instance was asked. -/
  made : ℕ
  /-- Each pause, in milliseconds. -/
  sleeps : List ℕ

namespace ArrRequest

variable {J : Type} (c : ArrRequest J)

/-- `{429, 500, 502, 503, 504}`. -/
def retryStatuses : List ℕ := [429, 500, 502, 503, 504]

/-- The body of a response that is no error. -/
def bodyOf (resp : HttpResponse J) : Except SyncError J :=
  let what := c.source ++ " " ++ c.method ++ " " ++ c.path
  if resp.contentLength = 0 then .ok c.empty
  else if ¬ "json".toList <:+: resp.contentType.toList.map Char.toLower then
    -- a page of a proxy is not an empty library
    .error (.runtime (what ++ ": expected JSON, got content-type " ++ c.repr resp.contentType ++
      " (body starts " ++ c.repr (String.ofList (resp.text.toList.take 80)) ++ ")"))
  else
    match resp.json with
    | some body => .ok body
    | none => .error (.runtime (what ++ ": response body is not valid JSON"))

/-- `resp.raise_for_status()` does not raise. -/
def isSuccess (resp : HttpResponse J) : Bool := 200 ≤ resp.statusCode && resp.statusCode < 300

/-- One turn of the loop. -/
def turn (replies : ℕ → Reply J) (attempt : ℕ) : Turn (Except SyncError J) HttpError :=
  match replies attempt with
  | .answered resp =>
      if resp.statusCode ∈ retryStatuses ∧ (attempt : Int) < c.retryAttempts then .again none
      else if isSuccess resp then .done (c.bodyOf resp)
      else
        let error := .status resp.statusCode resp.text resp.reasonPhrase
        if resp.statusCode < 500 ∧ resp.statusCode ≠ 429 then .leave error
        else if c.retryAttempts ≤ attempt then .leave error
        else .again (some error)
  | .raised text typeName =>
      if c.retryAttempts ≤ attempt then .leave (.other text typeName)
      else .again (some (.other text typeName))

/-- `RuntimeError(…) from last_err`. -/
def failure (error : HttpError) : SyncError :=
  .request error.status? (c.source ++ " request failed: " ++ c.method ++ " " ++ c.path ++ ": " ++
    summarizeArrHttpError error)

/-- `_request`. -/
def request (replies : ℕ → Reply J) : Requested J :=
  let tried := attemptLoop (c.turn replies) c.retryAttempts.toNat 1 none
  { result :=
      match tried.result with
      | some result => some result
      | none => tried.lastErr.map fun error => .error (c.failure error)
    made := tried.made
    sleeps := tried.paused.map (500 * ·) }

end ArrRequest

/-! ## The reply that counts -/

/-- The instance may answer otherwise in a moment. -/
def Reply.Transient {J : Type} : Reply J → Prop
  | .answered resp => resp.statusCode = 429 ∨ 500 ≤ resp.statusCode
  | .raised _ _ => True

instance {J : Type} : (reply : Reply J) → Decidable reply.Transient
  | .answered resp => inferInstanceAs (Decidable (resp.statusCode = 429 ∨ 500 ≤ resp.statusCode))
  | .raised _ _ => .isTrue trivial

section Replies

variable {J : Type} {c : ArrRequest J} {replies : ℕ → Reply J} {k n : ℕ}

/-- What `_request` makes of a reply when it asks no further. -/
def ArrRequest.verdict (c : ArrRequest J) : Reply J → Except SyncError J
  | .answered resp =>
      if ArrRequest.isSuccess resp then c.bodyOf resp
      else .error (c.failure (.status resp.statusCode resp.text resp.reasonPhrase))
  | .raised text typeName => .error (c.failure (.other text typeName))

/-- After `k` transient replies the next one counts. -/
structure SettledBy (c : ArrRequest J) (replies : ℕ → Reply J) (k : ℕ) : Prop where
  allowed : (k : Int) < c.retryAttempts
  before : ∀ i < k, (replies (i + 1)).Transient
  settled : (replies (k + 1)).Transient → c.retryAttempts ≤ (k + 1 : ℕ)

theorem ne_success_of_transient {resp : HttpResponse J} (h : (Reply.answered resp).Transient) :
    ArrRequest.isSuccess resp = false := by
  have hstatus : resp.statusCode = 429 ∨ 500 ≤ resp.statusCode := h
  simp only [ArrRequest.isSuccess, Bool.and_eq_false_iff, decide_eq_false_iff_not]
  omega

theorem transient_of_mem_retryStatuses {resp : HttpResponse J}
    (h : resp.statusCode ∈ ArrRequest.retryStatuses) : (Reply.answered resp).Transient := by
  simp only [ArrRequest.retryStatuses, List.mem_cons, List.not_mem_nil, or_false] at h
  show resp.statusCode = 429 ∨ 500 ≤ resp.statusCode
  omega

/-- A transient reply is asked for again while that is allowed. -/
theorem turn_again (ht : (replies n).Transient) (hn : (n : Int) < c.retryAttempts) :
    (c.turn replies n).Again := by
  unfold ArrRequest.turn
  cases hreply : replies n with
  | raised text typeName =>
      simp only [if_neg (not_le.mpr hn)]
      trivial
  | answered resp =>
      rw [hreply] at ht
      have hstatus : resp.statusCode = 429 ∨ 500 ≤ resp.statusCode := ht
      have hnot : ¬ (resp.statusCode < 500 ∧ resp.statusCode ≠ 429) := by omega
      simp only [ne_success_of_transient ht, if_neg hnot, if_neg (not_le.mpr hn)]
      split
      · trivial
      · trivial

/-- Any other reply is the last. -/
theorem turn_ends (h : (replies n).Transient → c.retryAttempts ≤ n) :
    c.turn replies n = .done (c.verdict (replies n)) ∨
      ∃ error, c.turn replies n = .leave error ∧
        c.verdict (replies n) = .error (c.failure error) := by
  unfold ArrRequest.turn ArrRequest.verdict
  cases hreply : replies n with
  | raised text typeName =>
      rw [hreply] at h
      exact Or.inr ⟨_, if_pos (h trivial), rfl⟩
  | answered resp =>
      rw [hreply] at h
      have hnever :
          ¬ (resp.statusCode ∈ ArrRequest.retryStatuses ∧ (n : Int) < c.retryAttempts) := by
        intro hretry
        exact not_le.mpr hretry.2 (h (transient_of_mem_retryStatuses hretry.1))
      simp only [if_neg hnever]
      cases hsuccess : ArrRequest.isSuccess resp with
      | true => exact Or.inl rfl
      | false =>
          refine Or.inr ⟨.status resp.statusCode resp.text resp.reasonPhrase, ?_, rfl⟩
          by_cases hfinal : resp.statusCode < 500 ∧ resp.statusCode ≠ 429
          · simp [hfinal]
          · have htransient : (Reply.answered resp).Transient := by
              show resp.statusCode = 429 ∨ 500 ≤ resp.statusCode
              omega
            simp [hfinal, h htransient]

/-- Some reply counts. -/
theorem exists_settledBy (h : 1 ≤ c.retryAttempts) (replies : ℕ → Reply J) :
    ∃ k, SettledBy c replies k := by
  have hex : ∃ k : ℕ, (replies (k + 1)).Transient → c.retryAttempts ≤ (k + 1 : ℕ) :=
    ⟨c.retryAttempts.toNat, fun _ => by omega⟩
  refine ⟨Nat.find hex, ?_, fun i hi => ?_, Nat.find_spec hex⟩
  · rcases Nat.eq_zero_or_pos (Nat.find hex) with hzero | hpos
    · omega
    · have hbefore := Nat.find_min hex (Nat.sub_lt hpos Nat.one_pos)
      rw [Classical.not_imp] at hbefore
      omega
  · have hbefore := Nat.find_min hex hi
    rw [Classical.not_imp] at hbefore
    exact hbefore.1

theorem request_of_none (h : c.retryAttempts < 1) : c.request replies = ⟨none, 0, []⟩ := by
  have hzero : c.retryAttempts.toNat = 0 := by omega
  unfold ArrRequest.request
  rw [hzero]
  rfl

theorem request_of_settledBy (h : SettledBy c replies k) :
    c.request replies =
      ⟨some (c.verdict (replies (k + 1))), k + 1, (List.range' 1 k).map (500 * ·)⟩ := by
  have hleft : k < c.retryAttempts.toNat := by
    have hallowed := h.allowed
    omega
  have hagain : ∀ i < k, (c.turn replies (1 + i)).Again := by
    intro i hi
    rw [Nat.add_comm]
    have hallowed := h.allowed
    exact turn_again (h.before i hi) (by omega)
  unfold ArrRequest.request
  rcases turn_ends h.settled with hturn | ⟨error, hturn, hverdict⟩
  · rw [Nat.add_comm k 1] at hturn
    obtain ⟨lastErr, hloop⟩ :=
      @attemptLoop_of_done _ _ (c.turn replies) _ 1 k none hleft hagain _ hturn
    rw [hloop, Nat.add_comm k 1]
  · rw [Nat.add_comm k 1] at hturn
    rw [attemptLoop_of_leave hleft hagain hturn, hverdict]
    rfl

/-- What the caller has of a request: a body, or what was raised. -/
def ArrRequest.answer (c : ArrRequest J) (replies : ℕ → Reply J) : Except SyncError J :=
  -- an `AssertionError` says nothing
  (c.request replies).result.getD (.error (.runtime ""))

/-- An answer is what some reply says. -/
theorem exists_reply_of_answer {out : Except SyncError J} (h : c.answer replies = out)
    (hraised : out ≠ .error (.runtime "")) : ∃ n, c.verdict (replies n) = out := by
  by_cases hsome : 1 ≤ c.retryAttempts
  · obtain ⟨k, hk⟩ := exists_settledBy hsome replies
    rw [ArrRequest.answer, request_of_settledBy hk, Option.getD_some] at h
    exact ⟨k + 1, h⟩
  · rw [ArrRequest.answer, request_of_none (not_le.mp hsome), Option.getD_none] at h
    exact absurd h.symm hraised

end Replies

/-- **What a request comes to.**  With attempts to make there is one reply that
counts.  The request comes to what that reply says; the instance has been asked
once for it and once for each transient reply before it, with a pause after each
of those that grows with the attempt. -/
theorem request_settles {J : Type} (c : ArrRequest J) (replies : ℕ → Reply J) :
    (c.retryAttempts < 1 → c.request replies = ⟨none, 0, []⟩) ∧
      (1 ≤ c.retryAttempts → ∃ k, SettledBy c replies k) ∧
      ∀ k, SettledBy c replies k → c.request replies =
        ⟨some (c.verdict (replies (k + 1))), k + 1, (List.range' 1 k).map (500 * ·)⟩ := by
  exact ⟨request_of_none, fun hsome => exists_settledBy hsome replies, fun k =>
    request_of_settledBy⟩

section Missing

variable {α : Type} {c : ArrRequest (ObjectBody α)} {replies : ℕ → Reply (ObjectBody α)}

/-- A body that is read is no 404. -/
theorem getOptional_bodyOf (resp : HttpResponse (ObjectBody α)) :
    getOptional (c.bodyOf resp) ≠ .ok .missing := by
  have hbody : ∀ body : ObjectBody α, getOptional (.ok body) ≠ .ok .missing := by
    intro body h
    cases body with
    | object row => cases h
    | other => cases h
  unfold ArrRequest.bodyOf
  split
  · exact hbody c.empty
  · split
    · exact nofun
    · split
      · exact hbody _
      · exact nofun

theorem eq_of_getOptional_request {code : ℕ} {message : String}
    (h : getOptional (.error (.request (some code) message) : Except SyncError (ObjectBody α)) =
      .ok .missing) : code = 404 := by
  unfold getOptional at h
  split at h
  next hreply =>
      obtain ⟨hcode, -⟩ := SyncError.request.inj (Except.error.inj hreply)
      exact Option.some.inj hcode
  next => cases h
  next => cases h
  next => cases h

/-- Only a 404 reads as one. -/
theorem verdict_missing_iff {reply : Reply (ObjectBody α)} :
    getOptional (c.verdict reply) = .ok .missing ↔
      ∃ resp, reply = .answered resp ∧ resp.statusCode = 404 := by
  cases reply with
  | raised text typeName =>
      constructor
      · intro h
        cases h
      · intro h
        obtain ⟨resp, hresp, -⟩ := h
        cases hresp
  | answered resp =>
      rw [ArrRequest.verdict]
      constructor
      · intro h
        refine ⟨resp, rfl, ?_⟩
        split at h
        · exact absurd h (getOptional_bodyOf resp)
        · exact eq_of_getOptional_request h
      · intro h
        obtain ⟨resp', hresp, hstatus⟩ := h
        obtain rfl := Reply.answered.inj hresp
        simp [ArrRequest.isSuccess, hstatus, ArrRequest.failure, HttpError.status?, getOptional]

end Missing

/-- **An outage never reads as a deletion.**  A call finds an item missing exactly
if the instance answers it with 404 on an attempt that is allowed, after nothing
but transient replies. -/
theorem missing_iff {α : Type} (c : ArrRequest (ObjectBody α))
    (replies : ℕ → Reply (ObjectBody α)) :
    (c.request replies).result.map getOptional = some (.ok .missing) ↔
      ∃ k : ℕ, (k : Int) < c.retryAttempts ∧ (∀ i < k, (replies (i + 1)).Transient) ∧
        ∃ resp, replies (k + 1) = .answered resp ∧ resp.statusCode = 404 := by
  constructor
  · intro h
    by_cases hsome : 1 ≤ c.retryAttempts
    · obtain ⟨k, hk⟩ := exists_settledBy hsome replies
      rw [request_of_settledBy hk] at h
      exact ⟨k, hk.allowed, hk.before, verdict_missing_iff.mp (Option.some.inj h)⟩
    · rw [request_of_none (not_le.mp hsome)] at h
      cases h
  · intro h
    obtain ⟨k, hallowed, hbefore, resp, hresp, hstatus⟩ := h
    have hk : SettledBy c replies k := by
      refine ⟨hallowed, hbefore, fun ht => ?_⟩
      rw [hresp] at ht
      have hcode : resp.statusCode = 429 ∨ 500 ≤ resp.statusCode := ht
      omega
    rw [request_of_settledBy hk]
    exact congrArg some (verdict_missing_iff.mpr ⟨resp, hresp, hstatus⟩)

end Nebularr
