import Nebularr.Watermark

/-!
# What the fold over the events yields

The run folds its events into the newest date and the greatest id, after a walk
that compares dates with the watermark.  A text that is no date is passed over,
but two dates one of which carries an offset cannot be compared, and the greatest
id so far is forgotten when it is zero.  This module says on which events the
fold yields the maxima.
-/

namespace Nebularr

section Fold

variable {T : Type} [LinearOrder T] (client : HistoryClient T)

/-- The ids, an absent one as zero. -/
def eventIds (events : List HistoryEvent) : List Int := events.map fun event => event.id.getD 0

/-- The latest of some dates, none of none. -/
def IsLatest (dates : List (Datetime T)) : Option (Datetime T) → Prop
  | none => dates = []
  | some top => top ∈ dates ∧ ∀ date ∈ dates, date.instant ≤ top.instant

/-- Nothing raises on a page of the events, in the walk or in the fold over
them, and the fold yields the latest date and the greatest id. -/
structure FoldYields (since : Option T) (events : List HistoryEvent) : Prop where
  walked : ∃ found, scanKept (client.keepRecord since) events = .ok found
  folded : ∃ latest, latestTime client events = .ok latest ∧
    IsLatest (parsableDates client events) latest
  greatest : latestId events = (eventIds events).max?

variable {client}

omit [LinearOrder T] in
theorem offsetsAgree_iff {dates : List (Datetime T)} :
    OffsetsAgree dates ↔
      (∀ date ∈ dates, date.hasOffset = true) ∨ ∀ date ∈ dates, date.hasOffset = false := by
  constructor
  · intro h
    cases dates with
    | nil => simp
    | cons first rest =>
        have hall := fun date hdate => h date hdate first List.mem_cons_self
        cases hfirst : first.hasOffset with
        | true => exact Or.inl fun date hdate => (hall date hdate).trans hfirst
        | false => exact Or.inr fun date hdate => (hall date hdate).trans hfirst
  · intro h a ha b hb
    rcases h with haware | hnaive
    · exact (haware a ha).trans (haware b hb).symm
    · exact (hnaive a ha).trans (hnaive b hb).symm

/-- A first date without an offset cannot be compared with the watermark. -/
theorem scanKept_naive {since : T} {events : List HistoryEvent}
    (hnaive : ∀ date ∈ parsableDates client events, date.hasOffset = false)
    (hsome : parsableDates client events ≠ []) :
    ∃ e, scanKept (client.keepRecord (some since)) events = .error e := by
  induction events with
  | nil => exact absurd rfl hsome
  | cons event rest ih =>
      cases hdate : client.dateOf event with
      | none =>
          have hdates : parsableDates client (event :: rest) = parsableDates client rest := by
            simp [parsableDates, hdate]
          rw [hdates] at hnaive hsome
          have hkeep : client.keepRecord (some since) event = .ok true := by
            simp [HistoryClient.keepRecord, hdate]
          obtain ⟨e, he⟩ := ih hnaive hsome
          exact ⟨e, by simp [scanKept, hkeep, he]⟩
      | some date =>
          have hmem : date ∈ parsableDates client (event :: rest) :=
            List.mem_filterMap.mpr ⟨event, List.mem_cons_self, hdate⟩
          have hoffset := hnaive date hmem
          have hkeep : ∃ e, client.keepRecord (some since) event = .error e := by
            simp [HistoryClient.keepRecord, hdate, Datetime.lt, hoffset, Except.map]
          obtain ⟨e, he⟩ := hkeep
          exact ⟨e, by simp [scanKept, he]⟩

/-- Once there is a watermark, the walk goes through exactly when every date
carries an offset. -/
theorem scanKept_isOk_iff {since : T} {events : List HistoryEvent}
    (hagree : OffsetsAgree (parsableDates client events)) :
    (∃ found, scanKept (client.keepRecord (some since)) events = .ok found) ↔
      ∀ date ∈ parsableDates client events, date.hasOffset = true := by
  constructor
  · intro ⟨found, hfound⟩ date hdate
    by_contra hoffset
    have hnaive : ∀ other ∈ parsableDates client events, other.hasOffset = false :=
      fun other hother => (hagree other hother date hdate).trans (by simpa using hoffset)
    have hraised : ∃ e, scanKept (client.keepRecord (some since)) events = .error e :=
      scanKept_naive hnaive (List.ne_nil_of_mem hdate)
    obtain ⟨e, he⟩ := hraised
    rw [hfound] at he
    cases he
  · intro haware
    apply scanKept_isOk
    intro event hevent
    unfold HistoryClient.keepRecord
    cases hdate : client.dateOf event with
    | none => exact ⟨true, rfl⟩
    | some date =>
        have hoffset := haware date (List.mem_filterMap.mpr ⟨event, hevent, hdate⟩)
        exact ⟨!decide (date.instant < since), by simp [Datetime.lt, hoffset, Except.map]⟩

theorem latestId_append (events : List HistoryEvent) (event : HistoryEvent) :
    latestId (events ++ [event]) = laterId (latestId events) event := by
  rw [latestId, List.foldl_append]
  rfl

/-- What the loop over the ids leaves: the greatest id, or when that is zero
something at most zero, which is zero only if the last id is. -/
theorem latestId_spec {events : List HistoryEvent} {greatest last : Int}
    (hgreatest : (eventIds events).max? = some greatest)
    (hlast : (eventIds events).getLast? = some last) :
    ∃ id, latestId events = some id ∧ (greatest ≠ 0 → id = greatest) ∧
      (greatest = 0 → id ≤ 0 ∧ (id = 0 ↔ last = 0)) := by
  induction events using List.reverseRecOn generalizing greatest last with
  | nil => simp [eventIds] at hlast
  | append_singleton events event ih =>
      have hids : eventIds (events ++ [event]) = eventIds events ++ [event.id.getD 0] := by
        simp [eventIds]
      rw [hids] at hgreatest hlast
      rw [List.getLast?_concat, Option.some.injEq] at hlast
      obtain ⟨hmem, hmax⟩ := List.max?_eq_some_iff.mp hgreatest
      have hle : event.id.getD 0 ≤ greatest := hmax _ (by simp)
      rw [latestId_append]
      rcases List.eq_nil_or_concat events with rfl | ⟨before, previous, hevents⟩
      · have heq : greatest = event.id.getD 0 := by simpa [eventIds] using hmem
        refine ⟨event.id.getD 0, rfl, fun _ => heq.symm, fun hzero => ?_⟩
        omega
      · have hne : eventIds events ≠ [] := by simp [eventIds, hevents]
        obtain ⟨m, hm⟩ := Option.isSome_iff_exists.mp (List.isSome_max?_of_ne_nil hne)
        obtain ⟨hmmem, hmmax⟩ := List.max?_eq_some_iff.mp hm
        obtain ⟨id, hid, hnonzero, hzero⟩ :=
          ih hm (List.getLast?_eq_some_getLast hne)
        have hmle : m ≤ greatest := hmax m (List.mem_append_left _ hmmem)
        have hsource : greatest ≤ m ∨ greatest = event.id.getD 0 := by
          rcases List.mem_append.mp hmem with hin | hin
          · exact Or.inl (hmmax greatest hin)
          · exact Or.inr (List.mem_singleton.mp hin)
        rw [hid]
        by_cases hforgotten : id = 0
        · refine ⟨event.id.getD 0, by simp [laterId, hforgotten], fun hne => ?_, fun heq => ?_⟩
          · omega
          · omega
        · refine ⟨max id (event.id.getD 0), by simp [laterId, hforgotten], fun hne => ?_,
            fun heq => ?_⟩
          · omega
          · omega

/-- The loop over the ids finds the greatest one, unless that is zero and the
loop ends below it. -/
theorem latestId_eq_max?_iff {events : List HistoryEvent} :
    latestId events = (eventIds events).max? ↔
      ¬ ((∀ id ∈ eventIds events, id ≤ 0) ∧ 0 ∈ eventIds events ∧
        ∃ last, (eventIds events).getLast? = some last ∧ last < 0) := by
  cases hmax : (eventIds events).max? with
  | none =>
      rw [List.max?_eq_none_iff] at hmax
      have hevents : events = [] := List.map_eq_nil_iff.mp hmax
      simp [hevents, eventIds, latestId]
  | some greatest =>
      obtain ⟨hmem, hle⟩ := List.max?_eq_some_iff.mp hmax
      have hne : eventIds events ≠ [] := List.ne_nil_of_mem hmem
      have hlast := List.getLast?_eq_some_getLast hne
      obtain ⟨id, hid, hnonzero, hzero⟩ := latestId_spec hmax hlast
      have hlastle := hle _ (List.getLast_mem hne)
      rw [hid, hlast, Option.some.injEq]
      constructor
      · intro heq ⟨hnonpos, hin, last, hlast', hnegative⟩
        obtain rfl := Option.some.inj hlast'
        have h0 := hle 0 hin
        have hgreatest := hnonpos greatest hmem
        have hiff := (hzero (by omega)).2
        omega
      · intro hdone
        by_contra hother
        have hgreatest : greatest = 0 := by
          by_contra hne0
          exact hother (hnonzero hne0)
        have hiff := (hzero hgreatest).2
        apply hdone
        refine ⟨fun x hx => hgreatest ▸ hle x hx, hgreatest ▸ hmem, _, rfl, ?_⟩
        omega

/-- The latest time is the latest date that can be read. -/
theorem isLatest_of_latestTime {events : List HistoryEvent} {latest : Option (Datetime T)}
    (h : latestTime client events = .ok latest) :
    IsLatest (parsableDates client events) latest := by
  obtain ⟨hdates, hsource⟩ := latestTime_eq_ok h
  have hbound : ∀ date ∈ parsableDates client events,
      ∃ top, latest = some top ∧ date.instant ≤ top.instant := by
    intro date hdate
    obtain ⟨event, hevent, hparsed⟩ := List.mem_filterMap.mp hdate
    exact hdates event hevent date hparsed
  cases latest with
  | none =>
      apply List.eq_nil_iff_forall_not_mem.mpr
      intro date hdate
      obtain ⟨top, htop, _⟩ := hbound date hdate
      cases htop
  | some top =>
      obtain ⟨event, hevent, hparsed⟩ := hsource top rfl
      refine ⟨List.mem_filterMap.mpr ⟨event, hevent, hparsed⟩, fun date hdate => ?_⟩
      obtain ⟨top', htop, hle⟩ := hbound date hdate
      obtain rfl := Option.some.inj htop
      exact hle

/-- **What the fold over the events yields.**  It fails on a list with and
without offsets, on one without them once there is a watermark, and on one whose
ids end below a greatest id of zero. -/
theorem foldYields_iff {since : Option T} {events : List HistoryEvent} :
    FoldYields client since events ↔
      ((∀ date ∈ parsableDates client events, date.hasOffset = true) ∨
        (since = none ∧ ∀ date ∈ parsableDates client events, date.hasOffset = false)) ∧
      ¬ ((∀ id ∈ eventIds events, id ≤ 0) ∧ 0 ∈ eventIds events ∧
        ∃ last, (eventIds events).getLast? = some last ∧ last < 0) := by
  have hagree : (∃ latest, latestTime client events = .ok latest ∧
      IsLatest (parsableDates client events) latest) ↔
      OffsetsAgree (parsableDates client events) := by
    rw [← latestTime_isOk_iff]
    constructor
    · intro ⟨latest, hlatest, _⟩
      exact ⟨latest, hlatest⟩
    · intro ⟨latest, hlatest⟩
      exact ⟨latest, hlatest, isLatest_of_latestTime hlatest⟩
  have hdates : (∃ found, scanKept (client.keepRecord since) events = .ok found) ∧
      OffsetsAgree (parsableDates client events) ↔
      (∀ date ∈ parsableDates client events, date.hasOffset = true) ∨
        (since = none ∧ ∀ date ∈ parsableDates client events, date.hasOffset = false) := by
    cases since with
    | none =>
        have hwalks : ∃ found, scanKept (client.keepRecord none) events = .ok found :=
          scanKept_isOk fun _ _ => ⟨true, rfl⟩
        simp only [hwalks, true_and, offsetsAgree_iff]
    | some since =>
        simp only [reduceCtorEq, false_and, or_false]
        constructor
        · intro ⟨hwalks, hoffsets⟩
          exact (scanKept_isOk_iff hoffsets).mp hwalks
        · intro haware
          have hoffsets := offsetsAgree_iff.mpr (Or.inl haware)
          exact ⟨(scanKept_isOk_iff hoffsets).mpr haware, hoffsets⟩
  rw [← hdates, ← latestId_eq_max?_iff, ← hagree]
  constructor
  · intro h
    exact ⟨⟨h.walked, h.folded⟩, h.greatest⟩
  · intro ⟨⟨hwalked, hfolded⟩, hgreatest⟩
    exact ⟨hwalked, hfolded, hgreatest⟩

end Fold

/-- One day with an offset and the next without. -/
def mixedDates (text : String) : Option (Datetime ℕ) :=
  if text = "2026-04-01T00:00:00+00:00" then some ⟨1, true⟩
  else if text = "2026-04-02T00:00:00" then some ⟨2, false⟩
  else none

/-- Two events, of which the second leaves out the offset, before there is a
watermark: the fold raises. -/
theorem not_foldYields_mixedDates :
    ¬ FoldYields (servingHistory mixedDates [] false) none
      [{ id := some 1, date := some "2026-04-01T00:00:00Z" },
        { id := some 2, date := some "2026-04-02T00:00:00" }] := by
  intro h
  obtain ⟨latest, hlatest, _⟩ := h.folded
  have hagree := latestTime_isOk_iff.mp ⟨latest, hlatest⟩
  have hoffsets := hagree ⟨1, true⟩ (by decide) ⟨2, false⟩ (by decide)
  cases hoffsets

end Nebularr
