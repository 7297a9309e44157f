import Nebularr.ArrRequests
import Nebularr.ShortResponses

/-!
# A Sonarr behind the wire

The calls of a Sonarr client, each with the replies that its attempts meet.  Where
the instance says nothing false about its library, the client serves it, however
often the instance is out of reach and whatever a proxy answers in its place
(`wire_serves`).
-/

namespace Nebularr

section Answer

variable {J : Type} {c : ArrRequest J} {replies : ℕ → Reply J} {body : J}

/-- A body comes with a response that is no error. -/
theorem exists_success_of_answer (h : c.answer replies = .ok body) :
    ∃ n resp, replies n = .answered resp ∧ ArrRequest.isSuccess resp = true ∧
      c.bodyOf resp = .ok body := by
  obtain ⟨n, hverdict⟩ := exists_reply_of_answer h nofun
  cases hreply : replies n with
  | raised text typeName =>
      rw [hreply] at hverdict
      cases hverdict
  | answered resp =>
      rw [hreply, ArrRequest.verdict] at hverdict
      split at hverdict
      next hsuccess => exact ⟨n, resp, hreply, hsuccess, hverdict⟩
      next => cases hverdict

/-- It is the JSON of that response, or there is nothing in it. -/
theorem eq_of_bodyOf {resp : HttpResponse J} (h : c.bodyOf resp = .ok body) :
    (resp.contentLength = 0 ∧ body = c.empty) ∨
      (resp.contentLength ≠ 0 ∧ resp.json = some body) := by
  unfold ArrRequest.bodyOf at h
  split at h
  next hempty => exact Or.inl ⟨hempty, (Except.ok.inj h).symm⟩
  next hcontent =>
      split at h
      · cases h
      · split at h
        next hjson =>
            rw [Except.ok.inj h] at hjson
            exact Or.inr ⟨hcontent, hjson⟩
        next => cases h

/-- A missing item has been answered with 404. -/
theorem exists_notFound_of_answer {α : Type} {c : ArrRequest (ObjectBody α)}
    {replies : ℕ → Reply (ObjectBody α)} (h : getOptional (c.answer replies) = .ok .missing) :
    ∃ n resp, replies n = .answered resp ∧ resp.statusCode = 404 := by
  have hraised : c.answer replies ≠ .error (.runtime "") := by
    intro hraised
    rw [hraised] at h
    cases h
  obtain ⟨n, hverdict⟩ := exists_reply_of_answer rfl hraised
  rw [← hverdict] at h
  obtain ⟨resp, hreply, hstatus⟩ := verdict_missing_iff.mp h
  exact ⟨n, resp, hreply, hstatus⟩

/-- What comes of an object that is asked for. -/
theorem getOptional_eq_ok {α : Type} {reply : Except SyncError (ObjectBody α)} {out : GetReply α}
    (h : getOptional reply = .ok out) :
    out = .missing ∨ ∃ body, reply = .ok body ∧ ∀ row, body = .object row → out = .row row := by
  unfold getOptional at h
  split at h
  next => exact Or.inl (Except.ok.inj h).symm
  next => cases h
  next row =>
      refine Or.inr ⟨.object row, rfl, fun row' hrow => ?_⟩
      rw [← Except.ok.inj h, ObjectBody.object.inj hrow]
  next => exact Or.inr ⟨.other, rfl, nofun⟩

end Answer

/-- The replies to the calls of a run, attempt by attempt. -/
structure SonarrWire where
  retryAttempts : Int
  repr : String → String
  series : ℕ → Reply (ListBody SeriesPayload)
  seriesById : Int → ℕ → Reply (ObjectBody SeriesPayload)
  /-- `list_episodes` may ask twice. -/
  episode : ℕ → Int → Bool → ℕ → Reply (ListBody EpisodePayload)

namespace SonarrWire

variable (wire : SonarrWire)

/-- `_request("GET", path)`; `{}` is no list, and as an object it is blank. -/
def get {J : Type} (path : String) (empty : J) : ArrRequest J :=
  { source := "sonarr", method := "GET", path := path, retryAttempts := wire.retryAttempts,
    repr := wire.repr, empty := empty }

def client : SonarrClient where
  seriesRequest := (wire.get "/api/v3/series" (.other "dict")).answer wire.series
  seriesByIdRequest sid :=
    (wire.get ("/api/v3/series/" ++ toString sid) .other).answer (wire.seriesById sid)
  episodeRequest attempt sid includeEpisodeFile :=
    (wire.get "/api/v3/episode" (.other "dict")).answer
      (wire.episode attempt sid includeEpisodeFile)

/-- Whatever the instance answers about its library is true: what it lists it
holds, a list of episodes is a list, and a series that it answers 404 for it does
not have. -/
structure Truthful (lib : SonarrLibrary) : Prop where
  list : ∀ n resp, wire.series n = .answered resp → ArrRequest.isSuccess resp = true →
    ∀ rows, resp.json = some (.items rows) → rows = lib.series
  get : ∀ sid n resp, wire.seriesById sid n = .answered resp → ArrRequest.isSuccess resp = true →
    resp.contentLength ≠ 0 ∧
      ∀ body, resp.json = some body → ∃ row, body = .object row ∧ lib.find sid = some row
  notFound : ∀ sid n resp, wire.seriesById sid n = .answered resp → resp.statusCode = 404 →
    lib.find sid = none
  episodes : ∀ attempt sid includeEpisodeFile n resp,
    wire.episode attempt sid includeEpisodeFile n = .answered resp →
      ArrRequest.isSuccess resp = true → resp.contentLength ≠ 0 ∧
        ∀ body, resp.json = some body → body = .items (lib.listed sid includeEpisodeFile)

end SonarrWire

section Serves

variable {wire : SonarrWire} {lib : SonarrLibrary}

theorem SonarrWire.Truthful.listSeries (h : wire.Truthful lib) {rows : List SeriesPayload}
    (hrows : wire.client.listSeries = .ok rows) : rows = lib.series := by
  unfold SonarrClient.listSeries expectList at hrows
  split at hrows
  next => cases hrows
  next body hreply =>
      obtain ⟨n, resp, hanswered, hsuccess, hbody⟩ := exists_success_of_answer hreply
      rcases eq_of_bodyOf hbody with ⟨-, hempty⟩ | ⟨-, hjson⟩
      · cases hempty
      · rw [← Except.ok.inj hrows]
        exact h.list n resp hanswered hsuccess _ hjson
  next => cases hrows

theorem SonarrWire.Truthful.getSeries (h : wire.Truthful lib) {sid : Int}
    {reply : GetReply SeriesPayload}
    (hreply : wire.client.getSeries sid = .ok reply) :
    reply = (lib.find sid).elim .missing .row := by
  rcases getOptional_eq_ok hreply with hmissing | ⟨body, hbody, hrow⟩
  · rw [hmissing] at hreply ⊢
    obtain ⟨n, resp, hanswered, hstatus⟩ := exists_notFound_of_answer hreply
    rw [h.notFound sid n resp hanswered hstatus]
    rfl
  · obtain ⟨n, resp, hanswered, hsuccess, hread⟩ := exists_success_of_answer hbody
    obtain ⟨hcontent, hjson⟩ := h.get sid n resp hanswered hsuccess
    rcases eq_of_bodyOf hread with ⟨hempty, -⟩ | ⟨-, hsome⟩
    · exact absurd hempty hcontent
    · obtain ⟨row, hobject, hfind⟩ := hjson body hsome
      rw [hrow row hobject, hfind]
      rfl

/-- One request for the episodes of a series. -/
theorem SonarrWire.Truthful.episodeRequest (h : wire.Truthful lib) {attempt : ℕ} {sid : Int}
    {includeEpisodeFile : Bool} {body : ListBody EpisodePayload}
    (hbody : wire.client.episodeRequest attempt sid includeEpisodeFile = .ok body) :
    body = .items (lib.listed sid includeEpisodeFile) := by
  obtain ⟨n, resp, hanswered, hsuccess, hread⟩ := exists_success_of_answer hbody
  obtain ⟨hcontent, hjson⟩ := h.episodes attempt sid includeEpisodeFile n resp hanswered hsuccess
  rcases eq_of_bodyOf hread with ⟨hempty, -⟩ | ⟨-, hsome⟩
  · exact absurd hempty hcontent
  · exact hjson body hsome

/-- The episodes of a series: with their files, or without where the request for
these failed. -/
theorem SonarrWire.Truthful.listEpisodes (h : wire.Truthful lib) {sid : Int}
    {episodes : List EpisodePayload} (hepisodes : wire.client.listEpisodes sid = .ok episodes) :
    episodes = lib.listed sid true ∨
      ((∃ error, wire.client.episodeRequest 0 sid true = .error error) ∧
        episodes = lib.listed sid false) := by
  unfold SonarrClient.listEpisodes at hepisodes
  split at hepisodes
  next body hfirst =>
      have hbody : body = .items (lib.listed sid true) := h.episodeRequest hfirst
      rw [hbody] at hepisodes
      exact Or.inl (Except.ok.inj hepisodes).symm
  next error hfirst =>
      cases hsecond : wire.client.episodeRequest 1 sid false with
      | error _ =>
          rw [hsecond] at hepisodes
          cases hepisodes
      | ok body =>
          rw [hsecond, h.episodeRequest hsecond] at hepisodes
          exact Or.inr ⟨⟨error, hfirst⟩, (Except.ok.inj hepisodes).symm⟩

end Serves

/-- **A client behind a bad wire serves the library**: each of its calls that
returns at all returns what the library holds. -/
theorem wire_serves {wire : SonarrWire} {lib : SonarrLibrary} (h : wire.Truthful lib) :
    (∀ rows, wire.client.listSeries = .ok rows → rows = lib.series) ∧
      (∀ sid reply, wire.client.getSeries sid = .ok reply →
        reply = (lib.find sid).elim .missing .row) ∧
      (∀ sid episodes, wire.client.listEpisodes sid = .ok episodes →
        episodes = lib.listed sid true ∨
          ((∃ error, wire.client.episodeRequest 0 sid true = .error error) ∧
            episodes = lib.listed sid false)) ∧
      wire.client.Serves lib :=
  ⟨fun _ => h.listSeries, fun _ _ => h.getSeries, fun _ _ => h.listEpisodes,
    ⟨fun _ => h.listSeries, fun _ _ => h.getSeries,
      fun _ _ _ _ hbody => Or.inl (h.episodeRequest hbody)⟩⟩

/-- Nobody is there on the first attempt, and on the second too much is going on. -/
def afterOutage {J : Type} (reply : Reply J) : ℕ → Reply J
  | 0 | 1 => .raised "All connection attempts failed" "ConnectError"
  | 2 => .answered { statusCode := 503, reasonPhrase := "Service Unavailable" }
  | _ + 3 => reply

theorem answered_afterOutage {J : Type} {reply : Reply J} {n : ℕ} {resp : HttpResponse J}
    (h : afterOutage reply n = .answered resp) :
    resp.statusCode = 503 ∨ reply = .answered resp := by
  match n with
  | 0 => cases h
  | 1 => cases h
  | 2 =>
      rw [← Reply.answered.inj h]
      exact Or.inl rfl
  | n + 3 => exact Or.inr h

/-- A response with JSON. -/
def jsonResponse {J : Type} (body : J) : HttpResponse J :=
  { statusCode := 200, contentType := "application/json", contentLength := 1, json := some body }

/-- A Sonarr that comes up while it is asked; a request for episodes with their
files ends at a sign-in page. -/
def sonarrComingUp : SonarrWire where
  retryAttempts := 3
  repr := id
  series := afterOutage (.answered (jsonResponse (.items oneEpisodeLibrary.series)))
  seriesById sid := afterOutage (.answered
    ((oneEpisodeLibrary.find sid).elim { statusCode := 404, reasonPhrase := "Not Found" } fun row =>
      jsonResponse (.object row)))
  episode _ sid includeEpisodeFile _ := .answered
    (if includeEpisodeFile then
      { statusCode := 200, contentType := "text/html", contentLength := 6, text := "<html>" }
    else jsonResponse (.items (oneEpisodeLibrary.listed sid false)))

theorem sonarrComingUp_truthful : sonarrComingUp.Truthful oneEpisodeLibrary where
  list := by
    intro n resp hanswered hsuccess rows hjson
    rcases answered_afterOutage hanswered with hstatus | hreply
    · rw [ArrRequest.isSuccess, hstatus] at hsuccess
      cases hsuccess
    · rw [← Reply.answered.inj hreply] at hjson
      exact (ListBody.items.inj (Option.some.inj hjson)).symm
  get := by
    intro sid n resp hanswered hsuccess
    rcases answered_afterOutage hanswered with hstatus | hreply
    · rw [ArrRequest.isSuccess, hstatus] at hsuccess
      cases hsuccess
    · rw [← Reply.answered.inj hreply] at hsuccess ⊢
      cases hfind : oneEpisodeLibrary.find sid with
      | none =>
          rw [hfind] at hsuccess
          cases hsuccess
      | some row =>
          refine ⟨Nat.one_ne_zero, fun body hjson => ⟨row, ?_, rfl⟩⟩
          exact (Option.some.inj hjson).symm
  notFound := by
    intro sid n resp hanswered hstatus
    rcases answered_afterOutage hanswered with hbusy | hreply
    · rw [hbusy] at hstatus
      cases hstatus
    · cases hfind : oneEpisodeLibrary.find sid with
      | none => rfl
      | some row =>
          rw [← Reply.answered.inj hreply, hfind] at hstatus
          cases hstatus
  episodes := by
    intro attempt sid includeEpisodeFile n resp hanswered _
    rw [← Reply.answered.inj hanswered]
    cases includeEpisodeFile with
    | true =>
        refine ⟨(by decide : (6 : ℕ) ≠ 0), fun body hjson => ?_⟩
        cases hjson
    | false => exact ⟨Nat.one_ne_zero, fun body hjson => (Option.some.inj hjson).symm⟩

/-- It serves its library: on the third attempt it lists its series, a series that
it does not have is missing, and of the other one the episode comes without its
file. -/
theorem wire_serves_comingUp :
    sonarrComingUp.client.Serves oneEpisodeLibrary ∧
      sonarrComingUp.client.listSeries = .ok oneEpisodeLibrary.series ∧
      sonarrComingUp.client.getSeries 2 = .ok .missing ∧
      sonarrComingUp.client.listEpisodes 1 = .ok [{ id := 11, seriesId := 1 }] :=
  ⟨(wire_serves sonarrComingUp_truthful).2.2.2, rfl, rfl, rfl⟩

end Nebularr
