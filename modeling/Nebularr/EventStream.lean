import Mathlib.Data.List.TakeWhile
import Nebularr.EventBus

/-!
# The stream of server-sent events

The text that `event_stream` yields, and a browser that reads it: character by
character, however the text comes in, and up to wherever the connection breaks.
`EventReader` is the reading of an event stream that the format prescribes; it
names nothing of the server.
-/

namespace EventReader

/-- A reader of an event stream: the unfinished line, whether it stands right
after a carriage return, the buffers, and the events dispatched so far. -/
structure Reader where
  line : List Char := []
  afterReturn : Bool := false
  type : List Char := []
  data : List Char := []
  events : List (List Char × List Char) := []
deriving DecidableEq, Repr

/-- A blank line: the event is dispatched, unless it has no data. -/
def Reader.dispatch (r : Reader) : Reader :=
  { r with
    line := []
    type := []
    data := []
    events :=
      if r.data = [] then r.events
      else r.events ++ [(if r.type = [] then "message".toList else r.type, r.data.dropLast)] }

/-- A field: the value loses one space in front.  `id` and `retry` do not matter
to what is dispatched. -/
def Reader.field (r : Reader) (name value : List Char) : Reader :=
  let value := if value.head? = some ' ' then value.tail else value
  if name = "event".toList then { r with line := [], type := value }
  else if name = "data".toList then { r with line := [], data := r.data ++ value ++ ['\n'] }
  else { r with line := [] }

/-- The end of a line; a line that starts with a colon is a comment. -/
def Reader.endLine (r : Reader) : Reader :=
  match r.line with
  | [] => r.dispatch
  | ':' :: _ => { r with line := [] }
  | line => r.field (line.takeWhile (· ≠ ':')) (line.dropWhile (· ≠ ':')).tail

/-- One character; a line ends in a line feed, a carriage return, or both. -/
def Reader.feed (r : Reader) (c : Char) : Reader :=
  if c = '\n' then (if r.afterReturn then { r with afterReturn := false } else r.endLine)
  else if c = '\r' then { r.endLine with afterReturn := true }
  else { r with line := r.line ++ [c], afterReturn := false }

def Reader.feedAll (r : Reader) (text : List Char) : Reader := text.foldl Reader.feed r

/-- What is read of a stream. -/
def read (text : List Char) : Reader := Reader.feedAll {} text

/-- A text without the end of a line. -/
def InLine (text : List Char) : Prop := ∀ c ∈ text, c ≠ '\n' ∧ c ≠ '\r'

/-- A text without line ends stays on its line. -/
theorem inLine_of_all {text : List Char} (h : (text.all fun c => c != '\n' && c != '\r') = true) :
    InLine text := by
  intro c hc
  have hboth := List.all_eq_true.mp h c hc
  rw [Bool.and_eq_true, bne_iff_ne, bne_iff_ne] at hboth
  exact hboth

variable {r : Reader} {text text' : List Char} {c : Char}

/-- Two texts are read one after the other. -/
theorem feedAll_append : r.feedAll (text ++ text') = (r.feedAll text).feedAll text' :=
  List.foldl_append

/-- The first character is read before the rest. -/
theorem feedAll_cons : r.feedAll (c :: text) = (r.feed c).feedAll text := rfl

/-- It does not matter in which pieces the text comes. -/
theorem feedAll_flatten (pieces : List (List Char)) :
    r.feedAll pieces.flatten = pieces.foldl Reader.feedAll r := by
  induction pieces generalizing r with
  | nil => rfl
  | cons piece rest ih => rw [List.flatten_cons, feedAll_append, ih, List.foldl_cons]

/-- A line's end takes back no event. -/
theorem events_endLine : r.events <+: r.endLine.events := by
  unfold Reader.endLine
  split
  · rw [Reader.dispatch]
    dsimp only
    split
    · exact List.prefix_rfl
    · exact List.prefix_append _ _
  · exact List.prefix_rfl
  · unfold Reader.field
    dsimp only
    split
    · exact List.prefix_rfl
    · split <;> exact List.prefix_rfl

/-- A character takes back no event. -/
theorem events_feed : r.events <+: (r.feed c).events := by
  unfold Reader.feed
  split
  · split
    · exact List.prefix_rfl
    · exact events_endLine
  · split
    · exact events_endLine
    · exact List.prefix_rfl

/-- What is dispatched stays dispatched. -/
theorem events_feedAll : r.events <+: (r.feedAll text).events := by
  induction text generalizing r with
  | nil => exact List.prefix_rfl
  | cons c rest ih => exact events_feed.trans ih

/-- A text that is part of a line adds to the line. -/
theorem feedAll_inLine (h : InLine text) (hreturn : r.afterReturn = false) :
    r.feedAll text = { r with line := r.line ++ text } := by
  induction text generalizing r with
  | nil => rw [List.append_nil]; rfl
  | cons c rest ih =>
      obtain ⟨⟨hfeed, hcarriage⟩, hrest⟩ := List.forall_mem_cons.mp h
      rw [feedAll_cons, Reader.feed, if_neg hfeed, if_neg hcarriage, ih hrest rfl,
        List.append_assoc, hreturn]
      rfl

/-- The end of a line that gives a field its value. -/
theorem endLine_field {name value : List Char} (hname : ':' ∉ name) (hne : name ≠ [])
    (hline : r.line = name ++ ':' :: ' ' :: value) : r.endLine = r.field name (' ' :: value) := by
  have hplain : ∀ c ∈ name, decide (c ≠ ':') = true :=
    fun c hc => decide_eq_true fun h => hname (h ▸ hc)
  have htake : (name ++ ':' :: ' ' :: value).takeWhile (· ≠ ':') = name := by
    rw [List.takeWhile_append_of_pos hplain]
    simp
  have hdrop : (name ++ ':' :: ' ' :: value).dropWhile (· ≠ ':') = ':' :: ' ' :: value := by
    rw [List.dropWhile_append_of_pos hplain]
    simp
  unfold Reader.endLine
  split
  · next hnil =>
      rw [hline] at hnil
      simp at hnil
  · next hcolon =>
      rw [hline] at hcolon
      cases name with
      | nil => exact absurd rfl hne
      | cons c rest => exact absurd ((List.cons.inj hcolon).1 ▸ List.mem_cons_self) hname
  · rw [hline, htake, hdrop]
    rfl

/-- A field stays on its line if its name and its value do. -/
theorem inLine_field {name value : List Char} (hvalue : InLine value) (hfeed : '\n' ∉ name)
    (hcarriage : '\r' ∉ name) : InLine (name ++ ':' :: ' ' :: value) := by
  intro c hc
  rw [List.mem_append, List.mem_cons, List.mem_cons] at hc
  obtain hname | rfl | rfl | hrest := hc
  · exact ⟨fun h => hfeed (h ▸ hname), fun h => hcarriage (h ▸ hname)⟩
  · decide
  · decide
  · exact hvalue c hrest

/-- A line that gives a field its value, read from the start of a line. -/
theorem feedAll_field {name value : List Char} (hname : ':' ∉ name) (hne : name ≠ [])
    (hin : InLine (name ++ ':' :: ' ' :: value)) (hline : r.line = [])
    (hreturn : r.afterReturn = false) :
    r.feedAll (name ++ ':' :: ' ' :: value ++ ['\n']) =
      Reader.field { r with line := name ++ ':' :: ' ' :: value } name (' ' :: value) := by
  rw [feedAll_append, feedAll_inLine hin hreturn, hline, List.nil_append]
  change Reader.feed _ '\n' = _
  rw [Reader.feed, if_pos rfl, if_neg (by rw [hreturn]; exact Bool.false_ne_true)]
  exact endLine_field hname hne rfl

/-! ## A stream in whole pieces -/

/-- A reader between two events. -/
def ready (events : List (List Char × List Char)) : Reader := { events := events }

/-- A piece that ends in a blank line, at which its event is dispatched, if it
has one. -/
def WholePiece (piece : List Char) (event : Option (List Char × List Char)) : Prop :=
  ∃ body, piece = body ++ ['\n'] ∧ ∀ events, ((ready events).feedAll body).events = events ∧
    (ready events).feedAll piece = ready (events ++ event.toList)

variable {pieces : List (List Char × Option (List Char × List Char))}
  {events : List (List Char × List Char)}

/-- Nothing is dispatched before the end of a piece. -/
theorem WholePiece.events_of_cut {piece : List Char} {event : Option (List Char × List Char)}
    (h : WholePiece piece event) (hcut : text <+: piece) (hne : text ≠ piece) :
    ((ready events).feedAll text).events = events := by
  obtain ⟨body, rfl, hbody⟩ := h
  obtain ⟨more, rfl⟩ : text <+: body := (List.prefix_concat_iff.mp hcut).resolve_left hne
  have hbefore : (ready events).events <+: ((ready events).feedAll text).events := events_feedAll
  have hafter :
      ((ready events).feedAll text).events <+: ((ready events).feedAll (text ++ more)).events := by
    rw [feedAll_append]
    exact events_feedAll
  rw [(hbody events).1] at hafter
  exact hafter.eq_of_length_le hbefore.length_le

/-- **A stream that breaks off** has dispatched the events of the pieces that
came in whole, and no others. -/
theorem events_of_cut (hpieces : ∀ piece ∈ pieces, WholePiece piece.1 piece.2)
    (hcut : text <+: (pieces.map Prod.fst).flatten) :
    ∃ m ≤ pieces.length, ((pieces.take m).map Prod.fst).flatten <+: text ∧
      (m < pieces.length → text.length < ((pieces.take (m + 1)).map Prod.fst).flatten.length) ∧
        ((ready events).feedAll text).events = events ++ (pieces.take m).filterMap Prod.snd := by
  induction pieces generalizing text events with
  | nil =>
      obtain rfl : text = [] := List.prefix_nil.mp hcut
      exact ⟨0, Nat.le_refl 0, List.prefix_rfl, fun h =>
        absurd h (Nat.lt_irrefl 0), (List.append_nil events).symm⟩
  | cons piece rest ih =>
      obtain ⟨hpiece, hrest⟩ := List.forall_mem_cons.mp hpieces
      rw [List.map_cons, List.flatten_cons] at hcut
      by_cases hwhole : piece.1 <+: text
      · obtain ⟨more, rfl⟩ := hwhole
        have hmore : more <+: (rest.map Prod.fst).flatten :=
          (List.prefix_append_right_inj _).mp hcut
        obtain ⟨m, hm, htaken, hless, hevents⟩ := @ih more (events ++ piece.2.toList) hrest hmore
        obtain ⟨_, _, hread⟩ := hpiece
        refine ⟨m + 1, Nat.succ_le_succ hm, ?_, fun hlt => ?_, ?_⟩
        · rw [List.take_succ_cons, List.map_cons, List.flatten_cons]
          exact (List.prefix_append_right_inj _).mpr htaken
        · rw [List.take_succ_cons, List.map_cons, List.flatten_cons, List.length_append,
            List.length_append]
          exact Nat.add_lt_add_left (hless (Nat.lt_of_succ_lt_succ hlt)) _
        · rw [feedAll_append, (hread events).2, hevents, List.take_succ_cons, List.filterMap_cons,
            List.append_assoc]
          cases piece.2 <;> rfl
      · have hpart : text <+: piece.1 :=
          (List.prefix_or_prefix_of_prefix hcut (List.prefix_append _ _)).resolve_right hwhole
        have hne : text ≠ piece.1 := fun h => hwhole (h ▸ List.prefix_rfl)
        refine ⟨0, Nat.zero_le _, List.nil_prefix, fun _ => ?_, ?_⟩
        · rw [List.take_succ_cons, List.map_cons, List.flatten_cons, List.length_append]
          have hshorter : text.length < piece.1.length :=
            lt_of_le_of_ne hpart.length_le fun h => hne (hpart.eq_of_length h)
          omega
        · rw [hpiece.events_of_cut hpart hne]
          simp

end EventReader

namespace Nebularr

open EventReader

/-! ## What the server sends -/

section Stream

variable {D : Type} (dumps : ServerEvent D → String)

/-- What `event_stream` yields for a turn of its loop: the event that it got, or
none in time. -/
def turnText : Option (ServerEvent D) → String
  | none => ": keepalive\n\n"
  | some event => "event: " ++ event.type ++ "\ndata: " ++ dumps event ++ "\n\n"

/-- `event_stream`, over what comes of its turns. -/
def eventStream (turns : List (Option (ServerEvent D))) : List String :=
  ": connected\n\n" :: turns.map (turnText dumps)

/-- What a browser makes of an event. -/
def dispatched (event : ServerEvent D) : List Char × List Char :=
  (event.type.toList, (dumps event).toList)

variable {dumps}

/-- The greeting is a comment: it dispatches nothing. -/
theorem wholePiece_connected : WholePiece ": connected\n\n".toList none :=
  ⟨": connected\n".toList, rfl, fun events =>
    ⟨rfl, by rw [Option.toList_none, List.append_nil]; rfl⟩⟩

/-- So is the keepalive. -/
theorem wholePiece_keepalive : WholePiece (turnText dumps none).toList none := by
  rw [turnText]
  exact ⟨": keepalive\n".toList, rfl,
    fun events => ⟨rfl, by rw [Option.toList_none, List.append_nil]; rfl⟩⟩

/-- The text of an event dispatches it when its last character is read. -/
theorem wholePiece_event {event : ServerEvent D} (htype : InLine event.type.toList)
    (hne : event.type ≠ "") (hdata : InLine (dumps event).toList) :
    WholePiece (turnText dumps (some event)).toList (some (dispatched dumps event)) := by
  have htext : (turnText dumps (some event)).toList =
      ("event".toList ++ ':' :: ' ' :: event.type.toList ++ ['\n']) ++
        ("data".toList ++ ':' :: ' ' :: (dumps event).toList ++ ['\n']) ++ ['\n'] := by
    simp [turnText]
  refine ⟨_, htext, fun events => ?_⟩
  have hfields : (ready events).feedAll
      (("event".toList ++ ':' :: ' ' :: event.type.toList ++ ['\n']) ++
      ("data".toList ++ ':' :: ' ' :: (dumps event).toList ++ ['\n'])) =
        { ready events with type := event.type.toList, data := (dumps event).toList ++
          ['\n'] } := by
    rw [feedAll_append,
      feedAll_field (by decide) (by decide) (inLine_field htype (by decide) (by decide)) rfl rfl,
      Reader.field, if_pos rfl]
    dsimp only
    rw [feedAll_field (by decide) (by decide) (inLine_field hdata (by decide) (by decide)) rfl rfl,
      Reader.field,
      if_neg (by decide), if_pos rfl]
    rfl
  refine ⟨by rw [hfields]; rfl, ?_⟩
  have htype' : event.type.toList ≠ [] := fun h => hne (String.toList_eq_nil_iff.mp h)
  rw [htext, feedAll_append, hfields]
  change Reader.dispatch _ = _
  rw [Reader.dispatch, if_neg (List.append_ne_nil_of_right_ne_nil _ (List.cons_ne_nil _ _)),
    if_neg htype',
    List.dropLast_concat]
  rfl

/-- The pieces of the stream, each with what it makes a browser dispatch. -/
def streamPieces (dumps : ServerEvent D → String) (turns : List (Option (ServerEvent D))) :
    List (List Char × Option (List Char × List Char)) :=
  (": connected\n\n".toList, none) ::
    turns.map fun turn => ((turnText dumps turn).toList, turn.map (dispatched dumps))

/-- The pieces are those of the stream. -/
theorem fst_streamPieces (turns : List (Option (ServerEvent D))) :
    (streamPieces dumps turns).map Prod.fst = (eventStream dumps turns).map String.toList := by
  simp [streamPieces, eventStream]

/-- The first pieces dispatch the first events. -/
theorem filterMap_streamPieces {turns : List (Option (ServerEvent D))} (m : ℕ) :
    ((streamPieces dumps turns).take m).filterMap Prod.snd =
      ((turns.take (m - 1)).filterMap id).map (dispatched dumps) := by
  cases m with
  | zero => rfl
  | succ m =>
      rw [streamPieces, List.take_succ_cons, List.filterMap_cons_none rfl, ← List.map_take,
        List.filterMap_map,
        Nat.add_sub_cancel, List.map_filterMap]
      rfl

/-- **What a browser has of a stream that breaks off.**  Wherever the text of the
stream is cut, exactly the events of the turns that came in whole are
dispatched, with their types and data, and never a part of one. -/
theorem read_cut_eventStream {turns : List (Option (ServerEvent D))}
    (hdumps : ∀ event, InLine (dumps event).toList)
    (htypes : ∀ event, some event ∈ turns → InLine event.type.toList ∧ event.type ≠ "")
    {text : List Char}
    (hcut : text <+: ((eventStream dumps turns).map String.toList).flatten) :
    ∃ m ≤ turns.length + 1,
      (((eventStream dumps turns).take m).map String.toList).flatten <+: text ∧
        (m ≤ turns.length →
          text.length <
            (((eventStream dumps turns).take (m + 1)).map String.toList).flatten.length) ∧
          (read text).events = ((turns.take (m - 1)).filterMap id).map (dispatched dumps) := by
  have hpieces : ∀ piece ∈ streamPieces dumps turns, WholePiece piece.1 piece.2 := by
    intro piece hpiece
    obtain rfl | hturn := List.mem_cons.mp hpiece
    · exact wholePiece_connected
    · obtain ⟨turn, hmem, rfl⟩ := List.mem_map.mp hturn
      cases turn with
      | none => exact wholePiece_keepalive
      | some event =>
          exact wholePiece_event (htypes event hmem).1 (htypes event hmem).2 (hdumps event)
  rw [← fst_streamPieces] at hcut
  obtain ⟨m, hm, htaken, hless, hevents⟩ := @events_of_cut text _ [] hpieces hcut
  have hlength : (streamPieces dumps turns).length = turns.length + 1 := by simp [streamPieces]
  rw [List.map_take, fst_streamPieces, ← List.map_take] at htaken
  rw [List.map_take, fst_streamPieces, ← List.map_take] at hless
  refine ⟨m, hlength ▸ hm, htaken, fun hle => hless (by omega), hevents.trans ?_⟩
  rw [List.nil_append]
  exact filterMap_streamPieces m

/-- An event, a keepalive, and another event. -/
def threeTurns : List (Option (ServerEvent Bool)) :=
  [some ⟨"sync.progress", true⟩, none, some ⟨"sync.finished", false⟩]

def dumpsFlag (event : ServerEvent Bool) : String := if event.data then "true" else "false"

/-- A connection that breaks in the second of two events. -/
theorem read_cut_eventStream_broken :
    ∃ m ≤ 4, (read (": connected\n\nevent: sync.progress\ndata: true\n\n" ++
        ": keepalive\n\nevent: sync.finished\ndata: false\n").toList).events =
      ((threeTurns.take (m - 1)).filterMap id).map (dispatched dumpsFlag) := by
  have hdumps : ∀ event, InLine (dumpsFlag event).toList := by
    intro event
    rw [dumpsFlag]
    split <;> exact inLine_of_all (by decide)
  have htypes : ∀ event, some event ∈ threeTurns → InLine event.type.toList ∧ event.type ≠ "" := by
    intro event hmem
    obtain rfl | rfl : event = ⟨"sync.progress", true⟩ ∨ event = ⟨"sync.finished", false⟩ := by
      simpa [threeTurns] using hmem
    · exact ⟨inLine_of_all (by decide), by decide⟩
    · exact ⟨inLine_of_all (by decide), by decide⟩
  have hcut : (": connected\n\nevent: sync.progress\ndata: true\n\n" ++
      ": keepalive\n\nevent: sync.finished\ndata: false\n").toList <+:
        ((eventStream dumpsFlag threeTurns).map String.toList).flatten :=
          ⟨['\n'], by decide +kernel⟩
  obtain ⟨m, hm, -, -, hevents⟩ := read_cut_eventStream hdumps htypes hcut
  exact ⟨m, hm, hevents⟩

end Stream

end Nebularr
