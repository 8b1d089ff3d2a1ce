import Arvik.Foundation.Text

/-!
# Event streams

The text format in which events are pushed to a browser, as its consumers read it: line by line,
fields accumulating until a blank line dispatches a message. The identifier of the last event
outlives the messages; data and type do not.

A producer that writes one field a line is read back by three rules. `lines_append_line`: a text
without line breaks, ended by a line feed, is one line. `step_field`: a line made of a name, a
colon, a space and a value is that field. `exec_append`: what is sent in pieces that end with
complete lines is read piece by piece.

The reader is a state and a step for each line, so that what was sent before an event is nothing but
the state it is read in. A value is told from its name by the first colon, and one space behind it
is dropped, which is why a producer that always writes the space is free in what its values begin
with.

A byte order mark at the very front of a stream is no part of it, and has to be excluded once, for
the first event only.
-/

namespace EventStream

/-- A message as dispatched. -/
structure Message where
  data : Str
  type : Str
  lastEventId : Str
  deriving DecidableEq, Repr

/-- The buffers of the reader. -/
structure Reader where
  data : Str := []
  type : Str := []
  lastEventId : Str := []
  reconnectionTime : Option ℕ := none
  deriving DecidableEq, Repr

/-- The lines of a text, which end with a carriage return, a line feed, or the two together. What
follows the last line break is not a line. -/
def lines : Str → List Str
  | [] => []
  | '\r' :: '\n' :: s => [] :: lines s
  | '\r' :: s => [] :: lines s
  | '\n' :: s => [] :: lines s
  | c :: s =>
    match lines s with
    | [] => []
    | line :: rest => (c :: line) :: rest

/-- Process a field. -/
def Reader.field (self : Reader) (name value : Str) : Reader :=
  if name = "event".toList then { self with type := value }
  else if name = "data".toList then { self with data := self.data ++ value ++ ['\n'] }
  else if name = "id".toList then
    if '\x00' ∈ value then self else { self with lastEventId := value }
  else if name = "retry".toList then
    if value ≠ [] ∧ value.all Char.isDigit then
      { self with reconnectionTime := some (Nat.ofDigitChars 10 value 0) }
    else self
  else self

/-- Dispatch what has accumulated, if there is data. -/
def Reader.dispatch (self : Reader) : Reader × List Message :=
  ({ self with data := [], type := [] },
    if self.data = [] then []
    else [⟨self.data.dropLast, if self.type = [] then "message".toList else self.type,
      self.lastEventId⟩])

/-- Process a line. -/
def Reader.step (self : Reader) (line : Str) : Reader × List Message :=
  if line = [] then self.dispatch
  else if line.head? = some ':' then (self, [])
  else
    match Text.splitOnce ':' line with
    | some (name, value) => (self.field name ((Text.stripPrefix [' '] value).getD value), [])
    | none => (self.field line [], [])

/-- Process lines one after the other. -/
def Reader.exec (self : Reader) : List Str → Reader × List Message
  | [] => (self, [])
  | line :: rest =>
    (((self.step line).1.exec rest).1, (self.step line).2 ++ ((self.step line).1.exec rest).2)

/-- Decode a byte stream; what is not UTF-8 is replaced. -/
def decode (bytes : Bytes) : Str :=
  (Text.fromUtf8 bytes).getD (Text.fromUtf8Lossy bytes)

/-- The messages of a byte stream, which may start with a byte order mark. -/
def parse (bytes : Bytes) : List Message :=
  let text := decode bytes
  (({} : Reader).exec (lines ((Text.stripPrefix ['\uFEFF'] text).getD text))).2

example : parse (Text.utf8 "id: 1\r\ndata:a\ndata: b\r\r: note\nevent: x\n\n".toList) =
    [⟨"a\nb".toList, "message".toList, "1".toList⟩] := by
  decide

/-! ### Reading back what was written line by line -/

/-- A text that can stand in one line. -/
def OneLine (s : Str) : Prop :=
  '\r' ∉ s ∧ '\n' ∉ s

instance (s : Str) : Decidable (OneLine s) :=
  inferInstanceAs (Decidable (_ ∧ _))

/-- A field whose name and value have no line breaks is one line. -/
theorem OneLine.field {name value : Str} (hname : OneLine name) (hvalue : OneLine value) :
    OneLine (name ++ ':' :: ' ' :: value) := by
  refine ⟨fun h ↦ ?_, fun h ↦ ?_⟩
  · rcases List.mem_append.1 h with h | h
    · exact hname.1 h
    · simp only [List.mem_cons, Char.reduceEq, false_or] at h
      exact hvalue.1 h
  · rcases List.mem_append.1 h with h | h
    · exact hname.2 h
    · simp only [List.mem_cons, Char.reduceEq, false_or] at h
      exact hvalue.2 h

theorem lines_cons {c : Char} (hcr : c ≠ '\r') (hlf : c ≠ '\n') {s line : Str} {rest : List Str}
    (h : lines s = line :: rest) : lines (c :: s) = (c :: line) :: rest := by
  rw [lines.eq_5 _ _ (fun _ hc ↦ absurd hc hcr) hcr hlf, h]

/-- **A text without line breaks, ended by a line feed, is one line.** -/
theorem lines_append_line {line : Str} (h : OneLine line) (s : Str) :
    lines (line ++ '\n' :: s) = line :: lines s := by
  induction line with
  | nil => rfl
  | cons c line ih =>
    obtain ⟨hcr, hlf⟩ := h
    rw [List.mem_cons, not_or] at hcr hlf
    exact lines_cons (Ne.symm hcr.1) (Ne.symm hlf.1) (ih ⟨hcr.2, hlf.2⟩)

/-- Texts without line breaks, each ended by a line feed, are so many lines. -/
theorem lines_flatMap_append {texts : List Str} (h : ∀ text ∈ texts, OneLine text) (s : Str) :
    lines (texts.flatMap (fun text ↦ text ++ ['\n']) ++ s) = texts ++ lines s := by
  induction texts with
  | nil => rfl
  | cons text texts ih =>
    obtain ⟨htext, htexts⟩ := List.forall_mem_cons.1 h
    rw [List.flatMap_cons, List.append_assoc, List.append_assoc, List.singleton_append,
      lines_append_line htext, ih htexts, List.cons_append]

/-- **What is read in pieces is read piece by piece.** The reader is a fold over lines, and its
state is all that one piece leaves to the next. -/
theorem exec_append (self : Reader) (xs ys : List Str) :
    self.exec (xs ++ ys) =
      (((self.exec xs).1.exec ys).1, (self.exec xs).2 ++ ((self.exec xs).1.exec ys).2) := by
  induction xs generalizing self with
  | nil => rfl
  | cons x xs ih =>
    rw [List.cons_append, Reader.exec, ih, Reader.exec, List.append_assoc]

/-- **A line made of a name, a colon, a space and a value is that field.** -/
theorem step_field (self : Reader) {name : Str} (hname : ':' ∉ name) (hne : name ≠ [])
    (value : Str) : self.step (name ++ ':' :: ' ' :: value) = (self.field name value, []) := by
  have hhead : (name ++ ':' :: ' ' :: value).head? ≠ some ':' := by
    obtain ⟨c, rest, rfl⟩ := List.exists_cons_of_ne_nil hne
    exact fun h ↦ hname (Option.some.inj h ▸ List.mem_cons_self)
  rw [Reader.step, if_neg (List.append_ne_nil_of_left_ne_nil hne _), if_neg hhead,
    Text.splitOnce_append _ hname]
  rfl

/-- A line that starts with a colon is passed over. -/
theorem step_comment (self : Reader) (text : Str) : self.step (':' :: text) = (self, []) :=
  rfl

/-- The line of an optional field, if it is there, is read as one line. -/
theorem exec_optional {α : Type} (field : Option α) (line : α → Str) (next : α → Reader)
    (self : Reader) (h : ∀ a ∈ field, self.step (line a) = (next a, [])) :
    self.exec (field.map line).toList = ((field.map next).getD self, []) := by
  rcases field with - | a
  · rfl
  · show ((self.step (line a)).1, (self.step (line a)).2 ++ []) = _
    rw [h a rfl]
    rfl

/-- The parts of a text, each ended by a line feed, are the text ended by a line feed. -/
theorem flatMap_splitOn (s : Str) :
    ((s.splitOn '\n').flatMap fun part ↦ part ++ ['\n']) = s ++ ['\n'] := by
  have hparts : ∀ parts : List Str, parts ≠ [] →
      (parts.flatMap fun part ↦ part ++ ['\n']) = ['\n'].intercalate parts ++ ['\n'] := by
    intro parts hne
    induction parts with
    | nil => exact absurd rfl hne
    | cons part parts ih =>
      rcases parts with - | ⟨next, parts⟩
      · rw [List.flatMap_singleton, List.intercalate_singleton]
      · rw [List.flatMap_cons, ih nofun, List.intercalate_cons_cons, List.append_assoc,
          List.append_assoc, List.append_assoc]
  rw [hparts _ (List.splitOn_ne_nil _ _), List.intercalate_splitOn]

/-- The data buffer after a value was sent one line a field. -/
theorem exec_data (self : Reader) (values : List Str) :
    self.exec (values.map fun value ↦ "data".toList ++ ':' :: ' ' :: value) =
      ({ self with data := self.data ++ values.flatMap fun value ↦ value ++ ['\n'] }, []) := by
  induction values generalizing self with
  | nil => simp [Reader.exec]
  | cons value values ih =>
    rw [List.map_cons, Reader.exec, step_field self (by decide) (by decide), ih]
    simp [Reader.field]

theorem exec_comments (self : Reader) (texts : List Str) :
    self.exec (texts.map fun text ↦ ':' :: text) = (self, []) := by
  induction texts with
  | nil => rfl
  | cons text texts ih => rw [List.map_cons, Reader.exec, step_comment, ih, List.append_nil]

theorem decode_utf8 (s : Str) : decode (Text.utf8 s) = s := by
  rw [decode, Text.fromUtf8_utf8]
  rfl

end EventStream
