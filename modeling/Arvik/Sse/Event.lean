import Arvik.Foundation.EventStream
import Mathlib.Data.List.Induction

/-!
# Server-sent events

An event is built field by field and serialized one field a line, ended by a blank line. The
builders keep line breaks out of the fields that must not have any, and rewrite them in the others;
an `Event` carries what they ensured (`NoCr`, `NameText`, `IdText`), and that is all that the
serialization needs to be read back as it was meant: `exec_lines` says what a reader of the event
stream makes of one event.

The reader is that of the specification of event streams, in a module of its own, and knows nothing
of this writer. The comparison is by lines. The text of an event is the text of its lines, each
ended by a line feed (`wire_eq`), and no line holds a break of any kind, so the reader cuts the
stream where the writer ended its lines; what the reader does with one line of each field is a lemma
each.

What an event was meant to be is stated over the calls that built it (`given`, `expected`), not over
the fields, so that what the builders do to a text is part of the result.
-/

namespace Sse

open EventStream

/-! ### The fields -/

/-- A text whose line breaks are line feeds. -/
abbrev NoCr := { s : Str // '\r' ∉ s }

/-- A text without line breaks. -/
abbrev NameText := { s : Str // OneLine s }

/-- A text without line breaks and null characters. -/
abbrev IdText := { s : Str // OneLine s ∧ '\x00' ∉ s }

/-- Replace every `"\r\n"` by a line feed. -/
def replaceCrLf : Str → Str
  | [] => []
  | '\r' :: '\n' :: s => '\n' :: replaceCrLf s
  | c :: s => c :: replaceCrLf s

/-- Replace every carriage return by a line feed. -/
def replaceCr (s : Str) : Str :=
  s.map fun c ↦ if c = '\r' then '\n' else c

theorem not_mem_replaceCr (s : Str) : '\r' ∉ replaceCr s := by
  intro h
  obtain ⟨c, -, hc⟩ := List.mem_map.1 h
  split at hc
  · exact absurd hc (by decide)
  · next hne => exact hne hc

/-- The text with its line breaks normalized. -/
def normalizeNewlines (raw : Str) : NoCr :=
  if h : '\r' ∈ raw then ⟨replaceCr (replaceCrLf raw), not_mem_replaceCr _⟩ else ⟨raw, h⟩

/-- A character other than a line break. -/
def notBreak (c : Char) : Bool :=
  c ≠ '\n' && c ≠ '\r'

theorem oneLine_takeWhile (s : Str) : OneLine (s.takeWhile notBreak) := by
  have hall := List.all_eq_true.1 (List.all_takeWhile (p := notBreak) (l := s))
  exact ⟨fun h ↦ absurd (hall _ h) (by decide), fun h ↦ absurd (hall _ h) (by decide)⟩

/-- An identifier: cut at the first line break, null characters dropped. -/
def idText (s : Str) : IdText :=
  ⟨(s.takeWhile notBreak).filter fun c ↦ c ≠ '\x00',
    ⟨fun h ↦ (oneLine_takeWhile s).1 (List.mem_of_mem_filter h),
      fun h ↦ (oneLine_takeWhile s).2 (List.mem_of_mem_filter h)⟩,
    fun h ↦ absurd (List.of_mem_filter h) (by decide)⟩

/-- What comes before the first line break. -/
theorem headD_splitOnP (s : Str) :
    (s.splitOnP fun c ↦ c = '\n' || c = '\r').headD [] = s.takeWhile notBreak := by
  induction s with
  | nil => rfl
  | cons c s ih =>
    rw [List.splitOnP_cons_eq_if_modifyHead, List.takeWhile_cons]
    by_cases hc : c = '\n' ∨ c = '\r'
    · rw [if_pos (by simpa using hc)]
      rcases hc with rfl | rfl
      · rfl
      · rfl
    · rw [if_neg (by simpa using hc), if_pos (by simpa [notBreak] using hc), ← ih]
      obtain ⟨first, rest, hs⟩ := List.exists_cons_of_ne_nil (List.splitOnP_ne_nil _ s)
      rw [hs]
      rfl

/-- A name: the first part of the text split at its line breaks. -/
def nameText (s : Str) : NameText :=
  ⟨(s.splitOnP fun c ↦ c = '\n' || c = '\r').headD [],
    headD_splitOnP s ▸ oneLine_takeWhile s⟩

/-- An event. -/
structure Event where
  comment : Option NoCr := none
  id : Option IdText := none
  event : Option NameText := none
  data : Option NoCr := none
  /-- Milliseconds. -/
  retry : Option ℕ := none

namespace Event

/-- The calls an event is built with. The JSON text of a value has no line breaks. -/
inductive Call
  | data (raw : Str)
  | id (raw : Str)
  | event (raw : Str)
  | retry (millis : ℕ)
  | comment (raw : Str)
  | jsonData (text : NameText)

/-- One call. -/
def apply (self : Event) : Call → Event
  | .data raw => { self with data := some (normalizeNewlines raw) }
  | .id raw => { self with id := some (idText raw) }
  | .event raw => { self with event := some (nameText raw) }
  | .retry millis => { self with retry := some (millis % 2 ^ 64) }
  | .comment raw => { self with comment := some (normalizeNewlines raw) }
  | .jsonData text => { self with data := some ⟨text.1, text.2.1⟩ }

/-- The event built by a list of calls. -/
def build (calls : List Call) : Event :=
  calls.foldl apply {}

/-- The wire representation, as a text. -/
def wire (self : Event) : Str :=
  (match self.comment with
    | some comment => (comment.1.splitOn '\n').flatMap fun line ↦ ": ".toList ++ line ++ ['\n']
    | none => []) ++
  (match self.id with
    | some id => "id: ".toList ++ id.1 ++ ['\n']
    | none => []) ++
  (match self.event with
    | some event => "event: ".toList ++ event.1 ++ ['\n']
    | none => []) ++
  (match self.data with
    | some data =>
      -- empty data still makes a field, so that the event is dispatched
      if data.1.isEmpty then "data: \n".toList
      else (data.1.splitOn '\n').flatMap fun line ↦ "data: ".toList ++ line ++ ['\n']
    | none => []) ++
  (match self.retry with
    | some millis => "retry: ".toList ++ Nat.toDigits 10 millis ++ ['\n']
    | none => []) ++
  ['\n']

/-- The wire representation. -/
def serialize (self : Event) : Bytes :=
  Text.utf8 self.wire

/-! ### Reading an event back -/

/-- The lines of an event. -/
def lines (self : Event) : List Str :=
  ((self.comment.map fun comment ↦ comment.1.splitOn '\n').getD []).map
      (fun line ↦ ':' :: ' ' :: line) ++
    (self.id.map fun id ↦ "id".toList ++ ':' :: ' ' :: id.1).toList ++
    (self.event.map fun event ↦ "event".toList ++ ':' :: ' ' :: event.1).toList ++
    ((self.data.map fun data ↦ data.1.splitOn '\n').getD []).map
      (fun line ↦ "data".toList ++ ':' :: ' ' :: line) ++
    (self.retry.map fun millis ↦ "retry".toList ++ ':' :: ' ' :: Nat.toDigits 10 millis).toList ++
    [[]]

/-- The wire representation is that of the lines, each ended by a line feed. -/
theorem wire_eq (self : Event) :
    self.wire = self.lines.flatMap fun line ↦ line ++ ['\n'] := by
  have hdata : ∀ data : NoCr, (if data.1.isEmpty then "data: \n".toList
      else (data.1.splitOn '\n').flatMap fun line ↦ "data: ".toList ++ line ++ ['\n']) =
        ((data.1.splitOn '\n').map fun line ↦ "data".toList ++ ':' :: ' ' :: line).flatMap
          fun line ↦ line ++ ['\n'] := by
    rintro ⟨data, _⟩
    rcases data with - | ⟨c, data⟩
    · rfl
    · rw [List.flatMap_map]
      rfl
  rw [wire, lines]
  simp only [List.flatMap_append]
  refine congrArg₂ _ (congrArg₂ _ (congrArg₂ _ (congrArg₂ _ (congrArg₂ _ ?_ ?_) ?_) ?_) ?_) rfl
  · rcases self.comment with - | comment
    · rfl
    · rw [Option.map_some, Option.getD_some, List.flatMap_map]
      rfl
  · rcases self.id with - | id
    · rfl
    · exact (List.append_nil _).symm
  · rcases self.event with - | event
    · rfl
    · exact (List.append_nil _).symm
  · rcases self.data with - | data
    · rfl
    · exact hdata data
  · rcases self.retry with - | millis
    · rfl
    · exact (List.append_nil _).symm

/-- A part of a text with normalized line breaks is one line. -/
theorem oneLine_of_mem_splitOn {text : NoCr} {line : Str} (h : line ∈ text.1.splitOn '\n') :
    OneLine line := by
  obtain ⟨hlf, hsub⟩ := Text.mem_splitOn h
  exact ⟨fun hcr ↦ text.2 (hsub hcr), hlf⟩

theorem oneLine_toDigits (n : ℕ) : OneLine (Nat.toDigits 10 n) :=
  ⟨fun h ↦ absurd (Nat.isDigit_of_mem_toDigits (by decide) (by decide) h) (by decide),
    fun h ↦ absurd (Nat.isDigit_of_mem_toDigits (by decide) (by decide) h) (by decide)⟩

/-- No line of an event holds a line break. -/
theorem oneLine_of_mem_lines {self : Event} {line : Str} (h : line ∈ self.lines) :
    OneLine line := by
  have hparts : ∀ (texts : Option NoCr) (line : Str),
      line ∈ (texts.map fun text ↦ text.1.splitOn '\n').getD [] → OneLine line := by
    intro texts line hline
    rcases texts with - | text
    · exact absurd hline List.not_mem_nil
    · exact oneLine_of_mem_splitOn hline
  simp only [lines, List.mem_append, List.mem_singleton] at h
  rcases h with ((((h | h) | h) | h) | h) | rfl
  · obtain ⟨part, hpart, rfl⟩ := List.mem_map.1 h
    exact OneLine.field (show OneLine [] by decide) (hparts _ part hpart)
  · obtain ⟨id, -, rfl⟩ := Option.map_eq_some_iff.1 (Option.mem_toList.1 h)
    exact OneLine.field (by decide) id.2.1
  · obtain ⟨event, -, rfl⟩ := Option.map_eq_some_iff.1 (Option.mem_toList.1 h)
    exact OneLine.field (by decide) event.2
  · obtain ⟨part, hpart, rfl⟩ := List.mem_map.1 h
    exact OneLine.field (by decide) (hparts _ part hpart)
  · obtain ⟨millis, -, rfl⟩ := Option.map_eq_some_iff.1 (Option.mem_toList.1 h)
    exact OneLine.field (by decide) (oneLine_toDigits millis)
  · exact ⟨List.not_mem_nil, List.not_mem_nil⟩

theorem exec_id (self : Event) (reader : Reader) :
    reader.exec (self.id.map fun id ↦ "id".toList ++ ':' :: ' ' :: id.1).toList =
      ({ reader with lastEventId := (self.id.map Subtype.val).getD reader.lastEventId }, []) := by
  rw [exec_optional self.id _ (fun id ↦ { reader with lastEventId := id.1 }) reader fun id _ ↦ by
    rw [step_field reader (by decide) (by decide)]
    exact congrArg (·, []) (if_neg id.2.2)]
  rcases self.id with - | id
  · rfl
  · rfl

theorem exec_event (self : Event) (reader : Reader) :
    reader.exec (self.event.map fun event ↦ "event".toList ++ ':' :: ' ' :: event.1).toList =
      ({ reader with type := (self.event.map Subtype.val).getD reader.type }, []) := by
  rw [exec_optional self.event _ (fun event ↦ { reader with type := event.1 }) reader
    fun event _ ↦ step_field reader (by decide) (by decide) event.1]
  rcases self.event with - | event
  · rfl
  · rfl

theorem exec_dataLines (self : Event) (reader : Reader) :
    reader.exec (((self.data.map fun data ↦ data.1.splitOn '\n').getD []).map
        fun line ↦ "data".toList ++ ':' :: ' ' :: line) =
      ({ reader with data := reader.data ++ (self.data.map fun data ↦ data.1 ++ ['\n']).getD [] },
        []) := by
  rw [exec_data]
  rcases self.data with - | data
  · rfl
  · rw [Option.map_some, Option.getD_some, flatMap_splitOn]
    rfl

theorem exec_retry (self : Event) (reader : Reader) :
    reader.exec (self.retry.map fun millis ↦
        "retry".toList ++ ':' :: ' ' :: Nat.toDigits 10 millis).toList =
      ({ reader with reconnectionTime := self.retry.or reader.reconnectionTime }, []) := by
  rw [exec_optional self.retry _ (fun millis ↦ { reader with reconnectionTime := some millis })
    reader fun millis _ ↦ by
      rw [step_field reader (by decide) (by decide)]
      have hdigits : Nat.toDigits 10 millis ≠ [] ∧ (Nat.toDigits 10 millis).all Char.isDigit :=
        ⟨Nat.toDigits_ne_nil, List.all_eq_true.2 fun c hc ↦
          Nat.isDigit_of_mem_toDigits (by decide) (by decide) hc⟩
      refine congrArg (·, []) ((if_pos hdigits).trans ?_)
      rw [Nat.ofDigitChars_ten_toDigits]]
  rcases self.retry with - | millis
  · rfl
  · rfl

/-- A reader after an event: the buffers as they were, but for the identifier and the time to
reconnect. -/
def readBy (self : Event) (reader : Reader) : Reader :=
  { reader with
    lastEventId := (self.id.map Subtype.val).getD reader.lastEventId
    reconnectionTime := self.retry.or reader.reconnectionTime }

/-- The message of an event, if it has data. -/
def message? (self : Event) (lastEventId : Str) : Option Message :=
  let name := (self.event.map Subtype.val).getD []
  self.data.map fun data ↦
    ⟨data.1, if name = [] then "message".toList else name, lastEventId⟩

/-- **What a reader makes of an event**: one message if it has data, and none otherwise. The fields
come in a fixed order, so the state of the reader is followed from one to the next. -/
theorem exec_lines (self : Event) {reader : Reader} (hdata : reader.data = [])
    (htype : reader.type = []) :
    reader.exec self.lines = (self.readBy reader,
      (self.message? (self.readBy reader).lastEventId).toList) := by
  have hcomment : ∀ texts : List Str, (texts.map fun text ↦ ':' :: ' ' :: text) =
      (texts.map fun text ↦ ' ' :: text).map fun text ↦ ':' :: text := fun texts ↦ by
    rw [List.map_map]
    rfl
  rw [lines, exec_append, exec_append, exec_append, exec_append, exec_append, hcomment,
    exec_comments, exec_id, exec_event, exec_dataLines, exec_retry]
  obtain ⟨_, _, lastEventId, reconnectionTime⟩ := reader
  subst hdata htype
  show ((Reader.dispatch _).1, _ ++ ((Reader.dispatch _).2 ++ [])) = _
  rw [Reader.dispatch, message?, List.append_nil]
  rcases self.data with - | data
  · rfl
  · have hne : data.1 ++ ['\n'] ≠ [] := List.append_ne_nil_of_right_ne_nil _ nofun
    simp only [Option.map_some, Option.getD_some, List.nil_append, if_neg hne,
      List.dropLast_concat]
    rfl

/-! ### Sequences of events -/

/-- The messages of a sequence of events. -/
def messages (lastEventId : Str) : List Event → List Message
  | [] => []
  | event :: rest =>
    let current := (event.id.map Subtype.val).getD lastEventId
    (event.message? current).toList ++ messages current rest

theorem exec_flatMap_lines {reader : Reader} (hdata : reader.data = []) (htype : reader.type = [])
    (events : List Event) :
    (reader.exec (events.flatMap lines)).2 = messages reader.lastEventId events := by
  induction events generalizing reader with
  | nil => rfl
  | cons event rest ih =>
    rw [List.flatMap_cons, exec_append, exec_lines event hdata htype]
    exact congrArg (_ ++ ·) (ih hdata htype)

theorem head?_ne_of_mem_lines {self : Event} {line : Str} (h : line ∈ self.lines) :
    line.head? ≠ some '\uFEFF' := by
  simp only [lines, List.mem_append, List.mem_singleton] at h
  rcases h with ((((h | h) | h) | h) | h) | rfl
  · obtain ⟨part, -, rfl⟩ := List.mem_map.1 h
    show some ':' ≠ some '\uFEFF'
    decide
  · obtain ⟨id, -, rfl⟩ := Option.map_eq_some_iff.1 (Option.mem_toList.1 h)
    show some 'i' ≠ some '\uFEFF'
    decide
  · obtain ⟨event, -, rfl⟩ := Option.map_eq_some_iff.1 (Option.mem_toList.1 h)
    show some 'e' ≠ some '\uFEFF'
    decide
  · obtain ⟨part, -, rfl⟩ := List.mem_map.1 h
    show some 'd' ≠ some '\uFEFF'
    decide
  · obtain ⟨millis, -, rfl⟩ := Option.map_eq_some_iff.1 (Option.mem_toList.1 h)
    show some 'r' ≠ some '\uFEFF'
    decide
  · exact nofun

/-- The representation of an event does not start with a byte order mark. -/
theorem exists_wire_eq_cons (self : Event) : ∃ c s, self.wire = c :: s ∧ c ≠ '\uFEFF' := by
  have hne : self.lines ≠ [] := List.append_ne_nil_of_right_ne_nil _ nofun
  obtain ⟨line, rest, hlines⟩ := List.exists_cons_of_ne_nil hne
  have hhead := head?_ne_of_mem_lines (hlines ▸ List.mem_cons_self : line ∈ self.lines)
  rw [wire_eq, hlines, List.flatMap_cons]
  rcases line with - | ⟨c, line⟩
  · exact ⟨'\n', _, rfl, by decide⟩
  · exact ⟨c, _, rfl, fun hc ↦ hhead (congrArg some hc)⟩

/-- **A browser reads back what was serialized.** The events are read one after the other, each in
the state the one before it left, with its buffers empty. -/
theorem parse_flatten_serialize (events : List Event) :
    parse (events.map serialize).flatten = messages [] events := by
  have hbytes : (events.map serialize).flatten = Text.utf8 (events.flatMap wire) := by
    induction events with
    | nil => rfl
    | cons event rest ih =>
      rw [List.map_cons, List.flatten_cons, ih, List.flatMap_cons, Text.utf8_append]
      rfl
  have hmark : Text.stripPrefix ['\uFEFF'] (events.flatMap wire) = none := by
    rcases events with - | ⟨event, rest⟩
    · rfl
    · obtain ⟨c, s, hs, hne⟩ := exists_wire_eq_cons event
      rw [List.flatMap_cons, hs]
      exact if_neg (Ne.symm hne)
  have hlines : EventStream.lines (events.flatMap wire) = events.flatMap lines := by
    rw [List.flatMap_congr fun event _ ↦ wire_eq event, ← List.flatMap_assoc]
    have hone : ∀ line ∈ events.flatMap lines, OneLine line := by
      intro line hline
      obtain ⟨event, -, hmem⟩ := List.mem_flatMap.1 hline
      exact oneLine_of_mem_lines hmem
    have hall := lines_flatMap_append hone []
    rwa [List.append_nil, show EventStream.lines [] = [] from rfl, List.append_nil] at hall
  rw [parse, hbytes, decode_utf8, hmark, Option.getD_none, hlines]
  exact exec_flatMap_lines rfl rfl events

/-! ### Events as their builders were called -/

/-- What the last call to set a field gave it. -/
def given {α : Type} (field : Call → Option α) (calls : List Call) : Option α :=
  (calls.filterMap field).getLast?

/-- A text with every carriage return, alone or before a line feed, made a line feed. -/
def unixLines : Str → Str
  | [] => []
  | '\r' :: '\n' :: s => '\n' :: unixLines s
  | '\r' :: s => '\n' :: unixLines s
  | c :: s => c :: unixLines s

/-- The data a call asks for. -/
def Call.data? : Call → Option Str
  | .data raw => some (unixLines raw)
  | .jsonData text => some text.1
  | _ => none

/-- The name a call asks for. -/
def Call.event? : Call → Option Str
  | .event raw => some (raw.takeWhile notBreak)
  | _ => none

/-- The identifier a call asks for. -/
def Call.id? : Call → Option Str
  | .id raw => some ((raw.takeWhile notBreak).filter fun c ↦ c ≠ '\x00')
  | _ => none

/-- The messages events built by these calls are meant to be. -/
def expected (lastEventId : Str) : List (List Call) → List Message
  | [] => []
  | calls :: rest =>
    let current := (given Call.id? calls).getD lastEventId
    let name := (given Call.event? calls).getD []
    ((given Call.data? calls).map fun data ↦
      ⟨data, if name = [] then "message".toList else name, current⟩).toList ++
      expected current rest

theorem replaceCr_replaceCrLf (raw : Str) : replaceCr (replaceCrLf raw) = unixLines raw := by
  fun_induction unixLines raw with
  | case1 => rfl
  | case2 s ih => rw [replaceCrLf, ← ih]; rfl
  | case3 s hs ih =>
    rw [replaceCrLf.eq_3 _ _ fun s' _ h ↦ hs s' h, ← ih]
    rfl
  | case4 c s hcrlf hcr ih =>
    rw [replaceCrLf.eq_3 _ _ fun s' hc h ↦ hcrlf s' hc h, ← ih]
    exact congrArg (· :: _) (if_neg hcr)

theorem unixLines_eq_self {raw : Str} (h : '\r' ∉ raw) : unixLines raw = raw := by
  fun_induction unixLines raw with
  | case1 => rfl
  | case2 s ih => exact absurd List.mem_cons_self h
  | case3 s hs ih => exact absurd List.mem_cons_self h
  | case4 c s hcrlf hcr ih => rw [ih fun hmem ↦ h (List.mem_cons_of_mem c hmem)]

theorem normalizeNewlines_eq (raw : Str) : (normalizeNewlines raw).1 = unixLines raw := by
  rw [normalizeNewlines]
  split
  · exact replaceCr_replaceCrLf raw
  · next h => exact (unixLines_eq_self h).symm

theorem given_concat {α : Type} (field : Call → Option α) (calls : List Call) (call : Call) :
    given field (calls ++ [call]) = (field call).or (given field calls) := by
  rw [given, List.filterMap_append, given]
  rcases hcall : field call with - | a
  · simp [hcall]
  · simp [hcall]

/-- **An event is what its builders were last asked for.** Each call sets one field and leaves the
others, so the last call for a field decides. -/
theorem fields_build (calls : List Call) :
    (build calls).data.map Subtype.val = given Call.data? calls ∧
      (build calls).event.map Subtype.val = given Call.event? calls ∧
      (build calls).id.map Subtype.val = given Call.id? calls := by
  induction calls using List.reverseRecOn with
  | nil => exact ⟨rfl, rfl, rfl⟩
  | append_singleton calls call ih =>
    obtain ⟨hdata, hevent, hid⟩ := ih
    rw [given_concat, given_concat, given_concat, ← hdata, ← hevent, ← hid, build,
      List.foldl_concat, ← build]
    rcases call with raw | raw | raw | millis | raw | text
    · exact ⟨congrArg some (normalizeNewlines_eq raw), rfl, rfl⟩
    · exact ⟨rfl, rfl, rfl⟩
    · exact ⟨rfl, congrArg some (headD_splitOnP raw), rfl⟩
    · exact ⟨rfl, rfl, rfl⟩
    · exact ⟨rfl, rfl, rfl⟩
    · exact ⟨rfl, rfl, rfl⟩

theorem messages_map_build (lastEventId : Str) (events : List (List Call)) :
    messages lastEventId (events.map build) = expected lastEventId events := by
  induction events generalizing lastEventId with
  | nil => rfl
  | cons calls rest ih =>
    obtain ⟨hdata, hevent, hid⟩ := fields_build calls
    rw [List.map_cons, messages, expected, ih, message?, ← hdata, ← hevent, ← hid,
      Option.map_map]
    rfl

end Event

end Sse
