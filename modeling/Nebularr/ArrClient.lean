import Mathlib.Data.List.Forall2
import Mathlib.Data.PNat.Basic
import Nebularr.Warehouse

/-!
# The Arr client

What a sync run can learn from an Arr application.  The transport (retries,
back-off, headers) is behind `_request`, which either returns a decoded JSON
body or raises; a client below is the answers it gives.  On top of it stand
the calls the sync makes, with the shape checks of each: a list endpoint that
answers with something else is an error for series and movies, and an empty
list for episodes.
-/

namespace Nebularr

/-- What stops a run: a failed request, with the HTTP status behind it if
there is one, or a `RuntimeError` of the sync's own. -/
inductive SyncError
  | request (status : Option Nat) (message : String)
  | runtime (message : String)
deriving DecidableEq, Repr

/-- `str(exc)`. -/
def SyncError.text : SyncError → String
  | .request _ message => message
  | .runtime message => message

/-- A decoded body where the endpoint promises a list. -/
inductive ListBody (α : Type)
  | items (rows : List α)
  | other (typeName : String)
deriving Repr

/-- A decoded body where the endpoint promises an object. -/
inductive ObjectBody (α : Type)
  | object (row : α)
  | other
deriving Repr

/-- `_get_optional`: the object, `None` when Arr answered 404, `{}` for a body
that is no object. -/
inductive GetReply (α : Type)
  | row (row : α)
  | missing
  | blank
deriving DecidableEq, Repr

/-- The list check of `list_series` and `list_movies`. -/
def expectList {α : Type} (source path : String) (reply : Except SyncError (ListBody α)) :
    Except SyncError (List α) :=
  match reply with
  | .error e => .error e
  | .ok (.items rows) => .ok rows
  | .ok (.other typeName) =>
      .error (.runtime (source ++ " GET " ++ path ++ ": expected a list, got " ++ typeName))

/-- `_get_optional`. -/
def getOptional {α : Type} (reply : Except SyncError (ObjectBody α)) :
    Except SyncError (GetReply α) :=
  match reply with
  | .error (.request (some 404) _) => .ok .missing
  | .error e => .error e
  | .ok (.object row) => .ok (.row row)
  | .ok .other => .ok .blank

/-- A Sonarr application as one run sees it.  An episode request names the
attempt it belongs to, so that a retry may be answered differently. -/
structure SonarrClient where
  maxParallelRequests : Option Int := none
  supportsEpisodeIncludeFiles : Bool := true
  incrementalScopeRefresh : Bool := true
  seriesRequest : Except SyncError (ListBody SeriesPayload)
  seriesByIdRequest : Int → Except SyncError (ObjectBody SeriesPayload)
  episodeRequest : (attempt : Nat) → (seriesId : Int) → (includeEpisodeFile : Bool) →
    Except SyncError (ListBody EpisodePayload)

/-- A Radarr application as one run sees it. -/
structure RadarrClient where
  maxParallelRequests : Option Int := none
  incrementalScopeRefresh : Bool := true
  movieRequest : Except SyncError (ListBody MoviePayload)
  movieByIdRequest : Int → Except SyncError (ObjectBody MoviePayload)

namespace SonarrClient

variable (client : SonarrClient)

/-- `list_series`. -/
def listSeries : Except SyncError (List SeriesPayload) :=
  expectList "sonarr" "/api/v3/series" client.seriesRequest

/-- `get_series`. -/
def getSeries (sid : Int) : Except SyncError (GetReply SeriesPayload) :=
  getOptional (client.seriesByIdRequest sid)

/-- `payload if isinstance(payload, list) else []`. -/
def episodesOf : ListBody EpisodePayload → List EpisodePayload
  | .items rows => rows
  | .other _ => []

/-- `list_episodes`: one retry without files, and an empty list for a body
that is none. -/
def listEpisodes (sid : Int) : Except SyncError (List EpisodePayload) :=
  match client.episodeRequest 0 sid client.supportsEpisodeIncludeFiles with
  | .ok body => .ok (episodesOf body)
  | .error _ => (client.episodeRequest 1 sid false).map episodesOf

end SonarrClient

namespace RadarrClient

variable (client : RadarrClient)

/-- `list_movies`. -/
def listMovies : Except SyncError (List MoviePayload) :=
  expectList "radarr" "/api/v3/movie" client.movieRequest

/-- `get_movie`. -/
def getMovie (mid : Int) : Except SyncError (GetReply MoviePayload) :=
  getOptional (client.movieByIdRequest mid)

end RadarrClient

/-- `_fetch_chunk_size`: twice the request bound, 4 when there is none. -/
def fetchChunkSize (maxParallelRequests : Option Int) : ℕ+ :=
  let parallel := (maxParallelRequests.filter (· ≠ 0)).getD 4
  ⟨(max 1 (parallel * 2)).toNat, by omega⟩

/-- The answers of a gathered batch of calls, when none of them raises. -/
theorem mapM_eq_ok {ε α β : Type} {f : α → Except ε β} {g : α → β} {l : List α}
    (h : ∀ x ∈ l, f x = .ok (g x)) : l.mapM f = .ok (l.map g) := by
  induction l with
  | nil => rfl
  | cons x rest ih =>
      have hx := h x List.mem_cons_self
      have hrest := ih fun y hy => h y (List.mem_cons_of_mem x hy)
      rw [List.mapM_cons, hx, hrest]
      rfl

/-- A gathered batch that does not raise has the answer of each of its calls. -/
theorem forall₂_of_mapM_eq_ok {ε α β : Type} {f : α → Except ε β} {l : List α} {l' : List β}
    (h : l.mapM f = .ok l') : List.Forall₂ (fun x y => f x = .ok y) l l' := by
  induction l generalizing l' with
  | nil =>
      rw [List.mapM_nil] at h
      cases h
      exact List.Forall₂.nil
  | cons x rest ih =>
      rw [List.mapM_cons] at h
      cases hx : f x with
      | error e =>
          rw [hx] at h
          cases h
      | ok y =>
          cases hrest : rest.mapM f with
          | error e =>
              rw [hx, hrest] at h
              cases h
          | ok ys =>
              rw [hx, hrest] at h
              cases h
              exact List.Forall₂.cons hx (ih hrest)

end Nebularr
