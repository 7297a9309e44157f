import Nebularr.History

/-!
# The watermark

The row of `app.sync_state` that says how far an instance's history has been
read, and the newest date and id a run reads off its events.
-/

namespace Nebularr

/-! ## The watermark row -/

/-- A row of `app.sync_state`, as far as history goes. -/
structure Watermark (T : Type) where
  time : Option T := none
  id : Option Int := none
deriving DecidableEq, Repr

/-- `update_watermark_for_instance`: `coalesce` keeps the old value. -/
def Watermark.update {T : Type} (old : Watermark T) (time : Option T) (id : Option Int) :
    Watermark T :=
  ⟨time.or old.time, id.or old.id⟩

/-- `coalesce` never makes a value null. -/
theorem Watermark.update_isSome {T : Type} (old : Watermark T) (time : Option T) (id : Option Int) :
    (old.time.isSome = true → (old.update time id).time.isSome = true) ∧
      (old.id.isSome = true → (old.update time id).id.isSome = true) := by
  refine ⟨fun h => ?_, fun h => ?_⟩
  · cases time with
    | none => exact h
    | some _ => rfl
  · cases id with
    | none => exact h
    | some _ => rfl

/-! ## What the run reads off its events -/

section Latest

variable {T : Type} [LinearOrder T] (client : HistoryClient T)

/-- One turn of the loop over `latest_time`. -/
def laterTime (latest : Option (Datetime T)) (event : HistoryEvent) :
    Except SyncError (Option (Datetime T)) :=
  match client.dateOf event, latest with
  | none, _ => .ok latest
  | some parsed, none => .ok (some parsed)
  | some parsed, some time => (time.max parsed).map some

/-- `latest_time`. -/
def latestTime (events : List HistoryEvent) : Except SyncError (Option (Datetime T)) :=
  events.foldlM (laterTime client) none

/-- `max(latest_id, event_id) if latest_id else event_id`. -/
def laterId (latest : Option Int) (event : HistoryEvent) : Option Int :=
  let eventId := event.id.getD 0
  match latest with
  | none => some eventId
  | some id => if id = 0 then some eventId else some (max id eventId)

/-- `latest_id`. -/
def latestId (events : List HistoryEvent) : Option Int := events.foldl laterId none

/-- Any two of the dates can be compared. -/
def OffsetsAgree (dates : List (Datetime T)) : Prop :=
  ∀ a ∈ dates, ∀ b ∈ dates, a.hasOffset = b.hasOffset

/-- The dates that can be read. -/
def parsableDates (events : List HistoryEvent) : List (Datetime T) :=
  events.filterMap client.dateOf

variable {client}

/-- One turn keeps the time reached and takes in the event's. -/
theorem laterTime_eq_ok {latest result : Option (Datetime T)} {event : HistoryEvent}
    (h : laterTime client latest event = .ok result) :
    (∀ time, latest = some time → ∃ top, result = some top ∧ time.instant ≤ top.instant) ∧
      (∀ date, client.dateOf event = some date →
        ∃ top, result = some top ∧ date.instant ≤ top.instant) ∧
      (∀ top, result = some top → latest = some top ∨ client.dateOf event = some top) := by
  unfold laterTime at h
  cases hdate : client.dateOf event with
  | none =>
      simp only [hdate, Except.ok.injEq] at h
      subst h
      exact ⟨fun time ht => ⟨time, ht, le_refl _⟩, fun _ hd => (nomatch hd), fun _ => Or.inl⟩
  | some parsed =>
      cases latest with
      | none =>
          simp only [hdate, Except.ok.injEq] at h
          subst h
          refine ⟨fun _ ht => (nomatch ht), fun date hd => ?_, fun _ => Or.inr⟩
          obtain rfl := Option.some.inj hd
          exact ⟨parsed, rfl, le_refl _⟩
      | some time =>
          simp only [hdate] at h
          cases hmax : time.max parsed with
          | error e => simp [hmax, Except.map] at h
          | ok top =>
              simp only [hmax, Except.map, Except.ok.injEq] at h
              subst h
              obtain ⟨hfrom, htime, hparsed⟩ := Datetime.max_eq_ok hmax
              refine ⟨fun time' ht => ?_, fun date hd => ?_, fun top' htop => ?_⟩
              · obtain rfl := Option.some.inj ht
                exact ⟨top, rfl, htime⟩
              · obtain rfl := Option.some.inj hd
                exact ⟨top, rfl, hparsed⟩
              · obtain rfl := Option.some.inj htop
                rcases hfrom with rfl | rfl
                · exact Or.inl rfl
                · exact Or.inr rfl

/-- What the rest of the loop yields is no earlier than the time reached or than
a date it reads, and is one of these. -/
theorem foldlM_laterTime_eq_ok {events : List HistoryEvent} {latest result : Option (Datetime T)}
    (h : events.foldlM (laterTime client) latest = .ok result) :
    (∀ time, latest = some time → ∃ top, result = some top ∧ time.instant ≤ top.instant) ∧
      (∀ event ∈ events, ∀ date, client.dateOf event = some date →
        ∃ top, result = some top ∧ date.instant ≤ top.instant) ∧
      ∀ top, result = some top →
        latest = some top ∨ ∃ event ∈ events, client.dateOf event = some top := by
  induction events generalizing latest with
  | nil =>
      obtain rfl := Except.ok.inj h
      exact ⟨fun time ht => ⟨time, ht, le_refl _⟩, fun _ he => (nomatch he), fun _ => Or.inl⟩
  | cons event rest ih =>
      rw [List.foldlM_cons] at h
      cases hturn : laterTime client latest event with
      | error e => simp [hturn, bind, Except.bind] at h
      | ok next =>
          simp only [hturn, bind, Except.bind] at h
          obtain ⟨hkept, htaken, hfrom⟩ := laterTime_eq_ok hturn
          obtain ⟨hlater, hrest, hsource⟩ := ih h
          refine ⟨?_, ?_, ?_⟩
          · intro time ht
            obtain ⟨mid, hmid, hle⟩ := hkept time ht
            obtain ⟨top, htop, hle'⟩ := hlater mid hmid
            exact ⟨top, htop, hle.trans hle'⟩
          · intro event' hmem date hdate
            rcases List.mem_cons.mp hmem with rfl | hmem
            · obtain ⟨mid, hmid, hle⟩ := htaken date hdate
              obtain ⟨top, htop, hle'⟩ := hlater mid hmid
              exact ⟨top, htop, hle.trans hle'⟩
            · exact hrest event' hmem date hdate
          · intro top htop
            rcases hsource top htop with hnext | ⟨event', hmem, hdate⟩
            · rcases hfrom top hnext with hlatest | hdate
              · exact Or.inl hlatest
              · exact Or.inr ⟨event, List.mem_cons_self, hdate⟩
            · exact Or.inr ⟨event', List.mem_cons_of_mem _ hmem, hdate⟩

/-- The latest time is at or after every date read, and is one of them. -/
theorem latestTime_eq_ok {events : List HistoryEvent} {result : Option (Datetime T)}
    (h : latestTime client events = .ok result) :
    (∀ event ∈ events, ∀ date, client.dateOf event = some date →
      ∃ top, result = some top ∧ date.instant ≤ top.instant) ∧
      ∀ top, result = some top → ∃ event ∈ events, client.dateOf event = some top := by
  obtain ⟨-, hdates, hsource⟩ := foldlM_laterTime_eq_ok h
  refine ⟨hdates, fun top htop => ?_⟩
  rcases hsource top htop with hnone | hevent
  · cases hnone
  · exact hevent

theorem Datetime.max_of_sameOffset {a b : Datetime T} (h : a.hasOffset = b.hasOffset) :
    ∃ top, a.max b = .ok top ∧ (top = a ∨ top = b) := by
  have hlt : a.lt b = .ok (decide (a.instant < b.instant)) := by rw [Datetime.lt, if_pos h]
  have htop : ∃ top, a.max b = .ok top := by
    rw [Datetime.max, hlt]
    exact ⟨_, rfl⟩
  obtain ⟨top, htop⟩ := htop
  exact ⟨top, htop, (Datetime.max_eq_ok htop).1⟩

omit [LinearOrder T] in
theorem offsetsAgree_cons {date : Datetime T} {dates : List (Datetime T)} :
    OffsetsAgree (date :: dates) ↔ ∀ other ∈ dates, other.hasOffset = date.hasOffset := by
  constructor
  · intro h other hother
    exact h other (List.mem_cons_of_mem date hother) date List.mem_cons_self
  · intro h a ha b hb
    have hall : ∀ d ∈ date :: dates, d.hasOffset = date.hasOffset :=
      List.forall_mem_cons.mpr ⟨rfl, h⟩
    exact (hall a ha).trans (hall b hb).symm

theorem Datetime.max_of_otherOffset {a b : Datetime T} (h : a.hasOffset ≠ b.hasOffset) :
    ∃ e, a.max b = .error e := by
  unfold Datetime.max Datetime.lt
  rw [if_neg h]
  exact ⟨_, rfl⟩

omit [LinearOrder T] in
theorem parsableDates_cons (event : HistoryEvent) (rest : List HistoryEvent) :
    parsableDates client (event :: rest) =
      (client.dateOf event).toList ++ parsableDates client rest := by
  unfold parsableDates
  cases hdate : client.dateOf event <;> simp [hdate]

/-- A turn of the loop goes through when its two dates can be compared, and the
one it keeps stands for both. -/
theorem laterTime_agree_iff {latest : Option (Datetime T)} {event : HistoryEvent}
    {dates : List (Datetime T)} :
    (∃ next, laterTime client latest event = .ok next ∧ OffsetsAgree (next.toList ++ dates)) ↔
      OffsetsAgree (latest.toList ++ ((client.dateOf event).toList ++ dates)) := by
  cases hdate : client.dateOf event with
  | none =>
      have hturn : laterTime client latest event = .ok latest := by simp [laterTime, hdate]
      simp [hturn]
  | some parsed =>
      cases latest with
      | none =>
          have hturn : laterTime client none event = .ok (some parsed) := by
            simp [laterTime, hdate]
          simp [hturn]
      | some time =>
          have hturn : laterTime client (some time) event = (time.max parsed).map some := by
            simp [laterTime, hdate]
          rw [hturn, Option.toList_some, Option.toList_some, List.singleton_append,
            List.singleton_append, offsetsAgree_cons, List.forall_mem_cons]
          by_cases hsame : parsed.hasOffset = time.hasOffset
          · obtain ⟨top, htop, hfrom⟩ := Datetime.max_of_sameOffset hsame.symm
            have htopOffset : top.hasOffset = time.hasOffset := by
              rcases hfrom with rfl | rfl
              · rfl
              · exact hsame
            rw [htop, ← htopOffset, ← offsetsAgree_cons, htopOffset]
            simp [Except.map, hsame]
          · obtain ⟨e, he⟩ := Datetime.max_of_otherOffset (Ne.symm hsame)
            simp [he, Except.map, hsame]

/-- The fold goes through exactly when its dates can be compared. -/
theorem foldlM_laterTime_isOk_iff {events : List HistoryEvent} {latest : Option (Datetime T)} :
    (∃ result, events.foldlM (laterTime client) latest = .ok result) ↔
      OffsetsAgree (latest.toList ++ parsableDates client events) := by
  induction events generalizing latest with
  | nil =>
      have hone : OffsetsAgree latest.toList := by
        cases latest <;> simp [OffsetsAgree]
      exact iff_of_true ⟨latest, rfl⟩ (by simpa [parsableDates] using hone)
  | cons event rest ih =>
      rw [parsableDates_cons, ← laterTime_agree_iff, List.foldlM_cons]
      cases hturn : laterTime client latest event with
      | error e => simp [bind, Except.bind]
      | ok next =>
          constructor
          · intro hresult
            exact ⟨next, rfl, ih.mp hresult⟩
          · intro ⟨_, hnext, hagree⟩
            obtain rfl := Except.ok.inj hnext
            exact ih.mpr hagree

theorem latestTime_isOk_iff {events : List HistoryEvent} :
    (∃ latest, latestTime client events = .ok latest) ↔
      OffsetsAgree (parsableDates client events) :=
  foldlM_laterTime_isOk_iff

/-- Dates that all carry an offset can be compared. -/
theorem latestTime_isOk
    (hoffset : ∀ text date, client.fromIsoFormat text = some date → date.hasOffset = true)
    (events : List HistoryEvent) : ∃ time, latestTime client events = .ok time := by
  have haware : ∀ date ∈ parsableDates client events, date.hasOffset = true := by
    intro date hdate
    obtain ⟨event, _, hparsed⟩ := List.mem_filterMap.mp hdate
    obtain ⟨text, _, htext⟩ := Option.bind_eq_some_iff.mp hparsed
    exact hoffset _ date htext
  rw [latestTime_isOk_iff]
  exact fun a ha b hb => (haware a ha).trans (haware b hb).symm

end Latest

end Nebularr
