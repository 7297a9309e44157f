import Mathlib.Order.Lattice
import Nebularr.IncrementalSync
import Nebularr.PagedWalk

/-!
# Reading an Arr's history

`list_history_since` and the page walk behind it.  Newer applications have an
endpoint that filters by date, the others serve their history newest first in
pages, and the walk over these stops at the first record older than the
watermark, or after `HISTORY_FALLBACK_MAX_PAGES` pages.

Dates are texts.  What `datetime.fromisoformat` makes of one is a parameter;
instants are any linear order, and Python compares two dates only when both
or neither carry an offset.
-/

namespace Nebularr

/-! ## Dates -/

/-- A `datetime`.  Without an offset, the instant is the one the database reads
it at. -/
structure Datetime (T : Type) where
  instant : T
  hasOffset : Bool
deriving DecidableEq, Repr

namespace Datetime

variable {T : Type} [LinearOrder T]

/-- `a < b`. -/
def lt (a b : Datetime T) : Except SyncError Bool :=
  if a.hasOffset = b.hasOffset then .ok (decide (a.instant < b.instant))
  else .error (.runtime "can't compare offset-naive and offset-aware datetimes")

/-- `max(a, b)`: the first of them unless the second is later. -/
def max (a b : Datetime T) : Except SyncError (Datetime T) :=
  (a.lt b).map fun later => if later then b else a

theorem lt_eq_ok {a b : Datetime T} {later : Bool} (h : a.lt b = .ok later) :
    later = decide (a.instant < b.instant) := by
  unfold lt at h
  split at h
  · exact (Except.ok.inj h).symm
  · cases h

theorem max_eq_ok {a b top : Datetime T} (h : a.max b = .ok top) :
    (top = a ∨ top = b) ∧ a.instant ≤ top.instant ∧ b.instant ≤ top.instant := by
  unfold max at h
  cases hlt : a.lt b with
  | error e => simp [hlt, Except.map] at h
  | ok later =>
      simp only [hlt, Except.map, Except.ok.injEq] at h
      have hlater := lt_eq_ok hlt
      subst hlater
      by_cases hab : a.instant < b.instant
      · simp only [hab, decide_true, if_true] at h
        subst h
        exact ⟨Or.inr rfl, hab.le, le_refl _⟩
      · simp only [hab, decide_false, Bool.false_eq_true, if_false] at h
        subst h
        exact ⟨Or.inl rfl, le_refl _, not_lt.mp hab⟩

end Datetime

/-- `value.replace("Z", "+00:00")`. -/
def replaceZulu (value : String) : String :=
  String.ofList (value.toList.flatMap fun c => if c = 'Z' then "+00:00".toList else [c])

section Dates

variable {T : Type} (fromIsoFormat : String → Option (Datetime T))

/-- `_parse_history_date`; `none` also for a text that raises `ValueError`. -/
def parseHistoryDate (value : Option String) : Option (Datetime T) :=
  (value.filter (· ≠ "")).bind fun text => fromIsoFormat (replaceZulu text)

/-- The date of a record. -/
def HistoryEvent.parsedDate (event : HistoryEvent) : Option (Datetime T) :=
  parseHistoryDate fromIsoFormat event.date

end Dates

/-! ## The two endpoints -/

/-- A decoded body of `GET /api/v3/history`. -/
inductive HistoryBody
  | list (records : List HistoryEvent)
  | object (records : Option (ListBody HistoryEvent))
  | other

/-- `payload.get("records", payload) if isinstance(payload, dict) else payload`,
when that is a list. -/
def HistoryBody.records : HistoryBody → Option (List HistoryEvent)
  | .list records => some records
  | .object (some (.items records)) => some records
  | .object (some (.other _)) => none
  | .object none => none
  | .other => none

/-- The history side of an Arr as one run sees it. -/
structure HistoryClient (T : Type) where
  supportsHistory : Bool := true
  supportsHistorySince : Bool := true
  fromIsoFormat : String → Option (Datetime T)
  sinceRequest : (date : T) → Except SyncError (ListBody HistoryEvent)
  pageRequest : (page : ℕ) → Except SyncError HistoryBody

/-- `HISTORY_PAGE_SIZE`. -/
def historyPageSize : ℕ := 200

/-- `HISTORY_FALLBACK_MAX_PAGES`. -/
def historyFallbackMaxPages : ℕ := 25

/-- The records the page walk reaches at most. -/
def historyFallbackReach : ℕ := historyFallbackMaxPages * historyPageSize

namespace HistoryClient

variable {T : Type} [LinearOrder T] (client : HistoryClient T)

/-- The date of a record. -/
abbrev dateOf (event : HistoryEvent) : Option (Datetime T) :=
  event.parsedDate client.fromIsoFormat

/-- A record stays in the walk unless it is older than the watermark, which
comes with an offset. -/
def keepRecord (since : Option T) (record : HistoryEvent) : Except SyncError Bool :=
  match since, client.dateOf record with
  | none, _ => .ok true
  | some _, none => .ok true
  | some since, some date => (date.lt ⟨since, true⟩).map not

/-- `_list_history_paged`. -/
def listHistoryPaged (since : Option T) : Except SyncError (List HistoryEvent) :=
  pagedWalk (fun page => (client.pageRequest page).map HistoryBody.records)
    (client.keepRecord since) since.isNone historyPageSize historyFallbackMaxPages 1 []

/-- `list_history_since`, and what `supports_history_since` is afterwards: an
application that answers 404 or 405 has no such endpoint, any other failure
fails the run. -/
def listHistorySince (since : Option T) : Except SyncError (List HistoryEvent) × Bool :=
  if client.supportsHistory then
    match since, client.supportsHistorySince with
    | some date, true =>
        match client.sinceRequest date with
        | .ok (.items payload) => (.ok payload, true)
        | .ok (.other _) => (client.listHistoryPaged since, true)
        | .error (.request (some 404) _) => (client.listHistoryPaged since, false)
        | .error (.request (some 405) _) => (client.listHistoryPaged since, false)
        | .error e => (.error e, true)
    | some _, false => (client.listHistoryPaged since, false)
    | none, supported => (client.listHistoryPaged since, supported)
  else (.ok [], client.supportsHistorySince)

/-- The run has to walk pages: `history/since` is switched off, absent, or
answers with something that is no list. -/
def WalksPages (since : T) : Prop :=
  client.supportsHistorySince = true →
    match client.sinceRequest since with
    | .ok (.items _) => False
    | .ok (.other _) => True
    | .error (.request (some 404) _) => True
    | .error (.request (some 405) _) => True
    | .error _ => False

/-- Either the date endpoint served the run, or the page walk did. -/
theorem listHistorySince_eq_ok (hsupports : client.supportsHistory = true) {since : T}
    {events : List HistoryEvent} (h : (client.listHistorySince (some since)).1 = .ok events) :
    (¬ client.WalksPages since ∧ client.sinceRequest since = .ok (.items events)) ∨
      (client.WalksPages since ∧ client.listHistoryPaged (some since) = .ok events) := by
  unfold listHistorySince at h
  rw [if_pos hsupports] at h
  cases hsince : client.supportsHistorySince with
  | false =>
      rw [hsince] at h
      exact Or.inr ⟨fun hon => by simp [hsince] at hon, h⟩
  | true =>
      rw [hsince] at h
      simp only at h
      unfold WalksPages
      simp only [hsince, true_imp_iff]
      split at h
      · next payload hreply =>
          obtain rfl := Except.ok.inj h
          exact Or.inl ⟨by simp, hreply⟩
      · next typeName hreply => exact Or.inr ⟨by simp, h⟩
      · next message hreply => exact Or.inr ⟨by simp, h⟩
      · next message hreply => exact Or.inr ⟨by simp, h⟩
      · next e _ _ hreply => simp at h

/-- A record that stays in the walk is not older than the watermark. -/
theorem not_older_of_keepRecord {since : T} {event : HistoryEvent}
    (h : client.keepRecord (some since) event = .ok true) {date : Datetime T}
    (hdate : client.dateOf event = some date) : since ≤ date.instant := by
  unfold keepRecord at h
  simp only [hdate] at h
  cases hlt : date.lt ⟨since, true⟩ with
  | error e => simp [hlt, Except.map] at h
  | ok older =>
      simp only [hlt, Except.map, Except.ok.injEq, Bool.not_eq_true'] at h
      have holder := Datetime.lt_eq_ok hlt
      rw [h] at holder
      simpa using holder.symm

/-- The page walk returns nothing older than the watermark, whatever the Arr
serves. -/
theorem not_older_of_mem_listHistoryPaged {since : T} {events : List HistoryEvent}
    (h : client.listHistoryPaged (some since) = .ok events) :
    ∀ event ∈ events, ∀ date, client.dateOf event = some date → since ≤ date.instant := by
  intro event hevent date hdate
  have hkept := passed_of_mem_pagedWalk _ _ _ [] events (fun x hx => nomatch hx) h event hevent
  exact client.not_older_of_keepRecord hkept hdate

end HistoryClient

/-! ## An honest history -/

/-- The Arr serves the history `hist`, newest first: its pages are the pages of
`hist`, and `history/since` returns every record dated at or after the given
date. -/
structure HistoryClient.Serves {T : Type} [LinearOrder T] (client : HistoryClient T)
    (hist : List HistoryEvent) : Prop where
  newest_first : hist.Pairwise fun event older => ∀ date date',
    client.dateOf event = some date → client.dateOf older = some date' →
      date'.instant ≤ date.instant
  page : ∀ page body, client.pageRequest page = .ok body →
    body.records = some (pageOf historyPageSize hist page)
  since : ∀ date payload, client.sinceRequest date = .ok (.items payload) →
    ∀ event ∈ hist, ∀ t, client.dateOf event = some t → date ≤ t.instant → event ∈ payload

namespace HistoryClient

variable {T : Type} [LinearOrder T] {client : HistoryClient T} {hist : List HistoryEvent}

/-- A record the walk refuses is older than the watermark. -/
theorem older_of_keepRecord {since : T} {event : HistoryEvent}
    (h : client.keepRecord (some since) event = .ok false) :
    ∃ date, client.dateOf event = some date ∧ date.instant < since := by
  unfold keepRecord at h
  cases hdate : client.dateOf event with
  | none => simp [hdate] at h
  | some date =>
      simp only [hdate] at h
      cases hlt : date.lt ⟨since, true⟩ with
      | error e => simp [hlt, Except.map] at h
      | ok older =>
          simp only [hlt, Except.map, Except.ok.injEq, Bool.not_eq_false'] at h
          have holder := Datetime.lt_eq_ok hlt
          rw [h] at holder
          exact ⟨date, rfl, by simpa using holder.symm⟩

/-- Over an honest history the walk is one scan of its reach. -/
theorem scan_listHistoryPaged (hserves : client.Serves hist) {since : T}
    {events : List HistoryEvent} (h : client.listHistoryPaged (some since) = .ok events) :
    ∃ cut, scanKept (client.keepRecord (some since)) (hist.take historyFallbackReach) =
      .ok (events, cut) := by
  have hpage : ∀ page reply,
      ((client.pageRequest page).map HistoryBody.records) = .ok reply →
        reply = some (pageOf historyPageSize hist page) := by
    intro page reply hreply
    cases hrequest : client.pageRequest page with
    | error e => simp [hrequest, Except.map] at hreply
    | ok body =>
        simp only [hrequest, Except.map, Except.ok.injEq] at hreply
        rw [← hreply, hserves.page page body hrequest]
  have hsize : 0 < historyPageSize := by decide
  obtain ⟨kept, cut, hscan, hevents⟩ := pagedWalk_eq hsize hpage historyFallbackMaxPages 1 []
    events Nat.one_pos h
  simp only [Nat.sub_self, Nat.zero_mul, List.drop_zero, List.nil_append] at hscan hevents
  subst hevents
  exact ⟨cut, hscan⟩

/-- **What the page walk finds.**  Records of its reach only, and of these every
one dated at the watermark or later. -/
theorem mem_listHistoryPaged (hserves : client.Serves hist) {since : T}
    {events : List HistoryEvent} (h : client.listHistoryPaged (some since) = .ok events) :
    (∀ event ∈ events, event ∈ hist.take historyFallbackReach) ∧
      ∀ event ∈ hist.take historyFallbackReach, ∀ date, client.dateOf event = some date →
        since ≤ date.instant → event ∈ events := by
  obtain ⟨cut, hscan⟩ := scan_listHistoryPaged hserves h
  obtain ⟨hsub, hall⟩ := mem_scanKept hscan
  refine ⟨hsub, fun event hevent date hdate hsince => ?_⟩
  obtain ⟨pre, post, hsplit⟩ := List.append_of_mem hevent
  refine hall pre event post hsplit ?_ ?_
  · intro earlier hearlier hrefused
    obtain ⟨date', hdate', hlt⟩ := older_of_keepRecord hrefused
    -- what stands earlier is not older
    have hsorted := hserves.newest_first.sublist (List.take_sublist historyFallbackReach hist)
    have hreach : hist.take historyFallbackReach = pre ++ event :: post := hsplit
    rw [hreach, List.pairwise_append] at hsorted
    have hle := hsorted.2.2 earlier hearlier event List.mem_cons_self date' date hdate' hdate
    exact absurd (lt_of_le_of_lt hle hlt) (not_lt.mpr hsince)
  · intro hrefused
    obtain ⟨date', hdate', hlt⟩ := older_of_keepRecord hrefused
    obtain rfl := Option.some.inj (hdate.symm.trans hdate')
    exact absurd hlt (not_lt.mpr hsince)

/-- A record behind the reach is not newer than one within it. -/
theorem older_behind_reach (hserves : client.Serves hist) {newer event : HistoryEvent}
    (hnewer : newer ∈ hist.take historyFallbackReach)
    (hevent : event ∈ hist.drop historyFallbackReach) {date date' : Datetime T}
    (hdate : client.dateOf newer = some date) (hdate' : client.dateOf event = some date') :
    date'.instant ≤ date.instant := by
  have hsorted := hserves.newest_first
  rw [← List.take_append_drop historyFallbackReach hist, List.pairwise_append] at hsorted
  exact hsorted.2.2 newer hnewer event hevent date date' hdate hdate'

/-- When something behind the reach is not older than the watermark, the walk
keeps all of its reach. -/
theorem listHistoryPaged_whole (hserves : client.Serves hist) {since : T}
    {events : List HistoryEvent} (h : client.listHistoryPaged (some since) = .ok events)
    {event : HistoryEvent} (hevent : event ∈ hist.drop historyFallbackReach) {date : Datetime T}
    (hdate : client.dateOf event = some date) (hsince : since ≤ date.instant) :
    ∀ newer ∈ hist.take historyFallbackReach, newer ∈ events := by
  have hkept : ∀ newer ∈ hist.take historyFallbackReach,
      client.keepRecord (some since) newer ≠ .ok false := by
    intro newer hnewer hrefused
    obtain ⟨date', hdate', hlt⟩ := older_of_keepRecord hrefused
    have hle := older_behind_reach hserves hnewer hevent hdate' hdate
    exact absurd (lt_of_le_of_lt hle hlt) (not_lt.mpr hsince)
  obtain ⟨cut, hscan⟩ := scan_listHistoryPaged hserves h
  intro newer hnewer
  obtain ⟨pre, post, hsplit⟩ := List.append_of_mem hnewer
  refine (mem_scanKept hscan).2 pre newer post hsplit ?_ (hkept newer hnewer)
  intro earlier hearlier
  apply hkept
  rw [hsplit]
  exact List.mem_append_left _ hearlier

end HistoryClient

/-- `history/since` keeps to the date it was asked for. -/
def HistoryClient.KeepsToDate {T : Type} [LinearOrder T] (history : HistoryClient T) : Prop :=
  ∀ date payload, history.sinceRequest date = .ok (.items payload) →
    ∀ event ∈ payload, ∀ t, history.dateOf event = some t → date ≤ t.instant

/-- An Arr that serves a history, with or without the date endpoint. -/
def servingHistory {T : Type} [LinearOrder T] (fromIsoFormat : String → Option (Datetime T))
    (hist : List HistoryEvent) (hasSince : Bool) : HistoryClient T where
  fromIsoFormat := fromIsoFormat
  sinceRequest := fun date =>
    if hasSince then
      .ok (.items (hist.filter fun event =>
        (event.parsedDate fromIsoFormat).all fun parsed => decide (date ≤ parsed.instant)))
    else .error (.request (some 404) "NotFound")
  pageRequest := fun page => .ok (.list (pageOf historyPageSize hist page))

section Serving

variable {T : Type} [LinearOrder T] (fromIsoFormat : String → Option (Datetime T))
  (hist : List HistoryEvent) (hasSince : Bool)

theorem servingHistory_keepsToDate :
    (servingHistory fromIsoFormat hist hasSince).KeepsToDate := by
  intro date payload hreply event hevent t ht
  cases hasSince with
  | false => simp [servingHistory] at hreply
  | true =>
      simp only [servingHistory, if_true, Except.ok.injEq, ListBody.items.injEq] at hreply
      subst hreply
      have hpassed := (List.mem_filter.mp hevent).2
      simp only [HistoryClient.dateOf, servingHistory] at ht
      simpa [ht] using hpassed

/-- Served newest first, it is an honest history. -/
theorem servingHistory_serves
    (hsorted : hist.Pairwise fun event older => ∀ date date',
      event.parsedDate fromIsoFormat = some date → older.parsedDate fromIsoFormat = some date' →
        date'.instant ≤ date.instant) :
    (servingHistory fromIsoFormat hist hasSince).Serves hist where
  newest_first := hsorted
  page := by
    intro page body hreply
    obtain rfl := Except.ok.inj hreply
    rfl
  since := by
    intro date payload hreply event hevent t ht hle
    cases hasSince with
    | false => simp [servingHistory] at hreply
    | true =>
        simp only [servingHistory, if_true, Except.ok.injEq, ListBody.items.injEq] at hreply
        subst hreply
        simp only [HistoryClient.dateOf, servingHistory] at ht
        exact List.mem_filter.mpr ⟨hevent, by simp [ht, hle]⟩

/-- Without the date endpoint it is walked. -/
theorem servingHistory_walks (since : T) :
    (servingHistory fromIsoFormat hist false).WalksPages since ∧
      (servingHistory fromIsoFormat hist false).listHistorySince (some since) =
        ((servingHistory fromIsoFormat hist false).listHistoryPaged (some since), false) := by
  constructor
  · intro _
    simp [servingHistory]
  · simp [HistoryClient.listHistorySince, servingHistory]

/-- When its dates all carry an offset, the walk over its pages goes through. -/
theorem servingHistory_isOk
    (hoffset : ∀ text date, fromIsoFormat text = some date → date.hasOffset = true)
    (since : Option T) :
    ∃ events, (servingHistory fromIsoFormat hist hasSince).listHistoryPaged since = .ok events := by
  refine pagedWalk_isOk _ (fun page => ⟨_, rfl⟩) ?_ _ _ _
  intro page records _ record _
  unfold HistoryClient.keepRecord
  cases since with
  | none => exact ⟨true, rfl⟩
  | some since =>
      cases hdate : (servingHistory fromIsoFormat hist hasSince).dateOf record with
      | none => exact ⟨true, rfl⟩
      | some date =>
          obtain ⟨text, _, htext⟩ := Option.bind_eq_some_iff.mp hdate
          have haware := hoffset _ date htext
          exact ⟨!decide (date.instant < since), by simp [Datetime.lt, haware, Except.map]⟩

end Serving

end Nebularr
