import Arvik.Foundation.GrowBuffer
import Arvik.Sse.Event

/-!
# The length of an event

`Event::serialize` allocates its buffer once, with the capacity that `estimate_wire_len` computes
from the fields, and then writes slice by slice. The estimate counts a line of a comment or of data
by a closed formula, and takes the line feeds that the splitting consumed off the data.

`serialize_estimated` says how the two keep in step: the estimate never underflows, it is at least
what is written, and the buffer is not allocated again. It is by comparing the estimate part by part
with the length of what is written (`estimateWireLen_eq` and `length_serialize`): the identifier,
the name and the data are estimated exactly, a comment at one byte too much for every line but the
first, and the time at the longest that a 64-bit number can be.

The buffer itself is the growing buffer of the foundations, with any policy for growing, since the
point is that the policy is never asked.
-/

namespace Sse.Event

open EventStream

/-! ### The code -/

/-- The difference of two numbers, unless it is negative. -/
def checkedSub (a b : ℕ) : Option ℕ :=
  if b ≤ a then some (a - b) else none

/-- The estimate of the data field. -/
def estimateData (data : Str) : Option ℕ :=
  let lines := if data.isEmpty then 1 else (data.splitOn '\n').length
  (checkedSub lines 1).bind (checkedSub (lines * 7 + (Text.utf8 data).length))

/-- The estimate of the wire length; `none` if a subtraction underflows. -/
def estimateWireLen (self : Event) : Option ℕ :=
  let n := 1
  let n := n + self.comment.elim 0 fun comment ↦
    (comment.1.splitOn '\n').length * 3 + (Text.utf8 comment.1).length
  let n := n + self.id.elim 0 fun id ↦ 4 + (Text.utf8 id.1).length + 1
  let n := n + self.event.elim 0 fun event ↦ 7 + (Text.utf8 event.1).length + 1
  (self.data.elim (some n) fun data ↦ (estimateData data.1).map (n + ·)).map fun n ↦
    -- at most 20 digits of a 64-bit number
    n + self.retry.elim 0 fun _ ↦ 7 + 20 + 1

/-- The slices a text is written in, one line at a time behind a prefix. -/
def lineWrites (start : String) (text : Str) : List Bytes :=
  (text.splitOn '\n').flatMap fun line ↦
    [Text.utf8 start.toList, Text.utf8 line, Text.utf8 ['\n']]

/-- The slices an event is written in. -/
def writes (self : Event) : List Bytes :=
  (match self.comment with
    | some comment => lineWrites ": " comment.1
    | none => []) ++
  (match self.id with
    | some id => [Text.utf8 "id: ".toList, Text.utf8 id.1, Text.utf8 ['\n']]
    | none => []) ++
  (match self.event with
    | some event => [Text.utf8 "event: ".toList, Text.utf8 event.1, Text.utf8 ['\n']]
    | none => []) ++
  (match self.data with
    | some data =>
      if data.1.isEmpty then [Text.utf8 "data: \n".toList] else lineWrites "data: " data.1
    | none => []) ++
  (match self.retry with
    | some millis =>
      [Text.utf8 "retry: ".toList, Text.utf8 (Nat.toDigits 10 millis), Text.utf8 ['\n']]
    | none => []) ++
  [Text.utf8 ['\n']]

/-- The buffer an event is serialized into. -/
def serializeBuffer (grow : ℕ → ℕ) (self : Event) : Option (GrowBuffer UInt8) :=
  self.estimateWireLen.map fun n ↦ (GrowBuffer.withCapacity n).extendAll grow self.writes

/-! ### What is written -/

/-- Three slices for one text. -/
theorem flatten_three (s t u : Str) :
    [Text.utf8 s, Text.utf8 t, Text.utf8 u].flatten = Text.utf8 (s ++ t ++ u) := by
  rw [List.flatten_cons, List.flatten_cons, List.flatten_singleton, Text.utf8_append,
    Text.utf8_append, List.append_assoc]

theorem flatten_lineWrites (start : String) (text : Str) :
    (lineWrites start text).flatten =
      Text.utf8 ((text.splitOn '\n').flatMap fun line ↦ start.toList ++ line ++ ['\n']) := by
  rw [lineWrites]
  induction text.splitOn '\n' with
  | nil => rfl
  | cons line lines ih =>
    rw [List.flatMap_cons, List.flatten_append, ih, List.flatMap_cons, Text.utf8_append,
      flatten_three]

/-- The slices are the wire representation. -/
theorem flatten_writes (self : Event) : self.writes.flatten = self.serialize := by
  rw [serialize, wire, writes]
  simp only [List.flatten_append, Text.utf8_append, List.flatten_singleton]
  refine congrArg₂ _ (congrArg₂ _ (congrArg₂ _ (congrArg₂ _ (congrArg₂ _ ?_ ?_) ?_) ?_) ?_) rfl
  · rcases self.comment with - | comment
    · rfl
    · exact flatten_lineWrites ": " comment.1
  · rcases self.id with - | id
    · rfl
    · exact flatten_three _ _ _
  · rcases self.event with - | event
    · rfl
    · exact flatten_three _ _ _
  · rcases self.data with - | data
    · rfl
    · show List.flatten (if data.1.isEmpty then _ else _) = _
      rw [apply_ite List.flatten, flatten_lineWrites, List.flatten_singleton, ← apply_ite]
  · rcases self.retry with - | millis
    · rfl
    · exact flatten_three _ _ _

/-! ### How long it is -/

/-- A field of several lines: the prefixes, the text, and one line feed more than it has. -/
theorem length_fieldLines (start : Str) (text : Str) :
    (Text.utf8 ((text.splitOn '\n').flatMap fun line ↦ start ++ line ++ ['\n'])).length =
      (text.splitOn '\n').length * (Text.utf8 start).length + (Text.utf8 text).length + 1 := by
  have hlines : ∀ lines : List Str,
      (Text.utf8 (lines.flatMap fun line ↦ start ++ line ++ ['\n'])).length =
        lines.length * (Text.utf8 start).length +
          (Text.utf8 (lines.flatMap fun line ↦ line ++ ['\n'])).length := by
    intro lines
    induction lines with
    | nil => rw [List.length_nil, Nat.zero_mul, Nat.zero_add]; rfl
    | cons line lines ih =>
      rw [List.flatMap_cons, List.flatMap_cons, List.append_assoc start, Text.utf8_append,
        Text.utf8_append start, Text.utf8_append (line ++ _), List.length_append,
        List.length_append, List.length_append, ih, List.length_cons, Nat.succ_mul]
      omega
  rw [hlines, flatMap_splitOn, Text.utf8_append, List.length_append, ← Nat.add_assoc]
  rfl

theorem one_le_length_splitOn (text : Str) : 1 ≤ (text.splitOn '\n').length :=
  List.length_pos_iff.2 (List.splitOn_ne_nil _ _)

/-- The data field, as it is written. -/
def dataField (data : Str) : Str :=
  if data.isEmpty then "data: \n".toList
  else (data.splitOn '\n').flatMap fun line ↦ "data: ".toList ++ line ++ ['\n']

/-- The estimate of the data field does not underflow and is exact. -/
theorem estimateData_eq (data : Str) :
    estimateData data = some (Text.utf8 (dataField data)).length := by
  rcases data with - | ⟨c, data⟩
  · rfl
  · have hpos := one_le_length_splitOn (c :: data)
    show (checkedSub ((c :: data).splitOn '\n').length 1).bind
        (checkedSub (((c :: data).splitOn '\n').length * 7 + _)) =
      some (Text.utf8 (((c :: data).splitOn '\n').flatMap _)).length
    rw [length_fieldLines, checkedSub, if_pos hpos, Option.bind_some, checkedSub, if_pos (by omega)]
    refine congrArg some ?_
    show _ = ((c :: data).splitOn '\n').length * 6 + _ + 1
    omega

/-- A 64-bit number has at most 20 digits. -/
theorem length_utf8_toDigits_le {millis : ℕ} (h : millis < 2 ^ 64) :
    (Text.utf8 (Nat.toDigits 10 millis)).length ≤ 20 := by
  have hascii : ∀ c ∈ Nat.toDigits 10 millis, c.toNat < 128 := fun c hc ↦
    Nat.lt_of_le_of_lt (Char.isDigit_iff_toNat.1
      (Nat.isDigit_of_mem_toDigits (by decide) (by decide) hc)).2 (by decide)
  rw [Text.utf8_of_ascii hascii, List.length_map]
  exact (Nat.length_toDigits_le_iff (by decide) (by decide)).2 (Nat.lt_trans h (by decide))

/-- The time to reconnect is a 64-bit number. -/
theorem retry_build_lt (calls : List Call) : ∀ millis ∈ (build calls).retry, millis < 2 ^ 64 := by
  induction calls using List.reverseRecOn with
  | nil => exact fun millis h ↦ absurd h (Option.not_mem_none millis)
  | append_singleton calls call ih =>
    rw [build, List.foldl_concat, ← build]
    rcases call with raw | raw | raw | millis | raw | text
    · exact ih
    · exact ih
    · exact ih
    · intro m hm
      rw [← Option.some.inj hm]
      exact Nat.mod_lt _ (by decide)
    · exact ih
    · exact ih

/-- The parts of an event, in bytes: comment, identifier and name, data, time, blank line. -/
theorem length_serialize (self : Event) :
    self.serialize.length =
      (self.comment.elim 0 fun comment ↦
        (comment.1.splitOn '\n').length * 2 + (Text.utf8 comment.1).length + 1) +
      (self.id.elim 0 fun id ↦ 4 + (Text.utf8 id.1).length + 1) +
      (self.event.elim 0 fun event ↦ 7 + (Text.utf8 event.1).length + 1) +
      (self.data.elim 0 fun data ↦ (Text.utf8 (dataField data.1)).length) +
      (self.retry.elim 0 fun millis ↦ 7 + (Text.utf8 (Nat.toDigits 10 millis)).length + 1) +
      1 := by
  have hfield : ∀ start text : Str, (Text.utf8 (start ++ text ++ ['\n'])).length =
      (Text.utf8 start).length + (Text.utf8 text).length + 1 := fun start text ↦ by
    rw [Text.utf8_append, Text.utf8_append, List.length_append, List.length_append]
    rfl
  rw [serialize, wire]
  simp only [Text.utf8_append, List.length_append]
  refine congrArg₂ _ (congrArg₂ _ (congrArg₂ _ (congrArg₂ _ (congrArg₂ _ ?_ ?_) ?_) ?_) ?_) rfl
  · rcases self.comment with - | comment
    · rfl
    · exact length_fieldLines ": ".toList comment.1
  · rcases self.id with - | id
    · rfl
    · exact hfield "id: ".toList id.1
  · rcases self.event with - | event
    · rfl
    · exact hfield "event: ".toList event.1
  · rcases self.data with - | data
    · rfl
    · rfl
  · rcases self.retry with - | millis
    · rfl
    · exact hfield "retry: ".toList (Nat.toDigits 10 millis)

/-! ### The estimate is enough -/

/-- The estimate, part by part: no subtraction underflows. -/
theorem estimateWireLen_eq (self : Event) :
    self.estimateWireLen = some (1 +
      (self.comment.elim 0 fun comment ↦
        (comment.1.splitOn '\n').length * 3 + (Text.utf8 comment.1).length) +
      (self.id.elim 0 fun id ↦ 4 + (Text.utf8 id.1).length + 1) +
      (self.event.elim 0 fun event ↦ 7 + (Text.utf8 event.1).length + 1) +
      (self.data.elim 0 fun data ↦ (Text.utf8 (dataField data.1)).length) +
      (self.retry.elim 0 fun _ ↦ 7 + 20 + 1)) := by
  rw [estimateWireLen]
  rcases self.data with - | data
  · rfl
  · show ((estimateData data.1).map _).map _ = _
    rw [estimateData_eq]
    rfl

/-- A comment is estimated at one byte too much for every line but the first. -/
theorem length_comment_le (comment : Option NoCr) :
    (comment.elim 0 fun comment ↦
      (comment.1.splitOn '\n').length * 2 + (Text.utf8 comment.1).length + 1) ≤
    comment.elim 0 fun comment ↦
      (comment.1.splitOn '\n').length * 3 + (Text.utf8 comment.1).length := by
  rcases comment with - | comment
  · exact Nat.le_refl 0
  · have hpos := one_le_length_splitOn comment.1
    show _ * 2 + _ + 1 ≤ _ * 3 + _
    omega

/-- The time is estimated at its longest. -/
theorem length_retry_le {retry : Option ℕ} (h : ∀ millis ∈ retry, millis < 2 ^ 64) :
    (retry.elim 0 fun millis ↦ 7 + (Text.utf8 (Nat.toDigits 10 millis)).length + 1) ≤
      retry.elim 0 fun _ ↦ 7 + 20 + 1 := by
  rcases retry with - | millis
  · exact Nat.le_refl 0
  · exact Nat.add_le_add_right (Nat.add_le_add_left (length_utf8_toDigits_le (h millis rfl)) 7) 1

/-- The estimate bounds what is written, and is exact without a comment and a time. -/
theorem exists_estimateWireLen {self : Event} (h : ∀ millis ∈ self.retry, millis < 2 ^ 64) :
    ∃ n, self.estimateWireLen = some n ∧ self.serialize.length ≤ n ∧
      (self.comment = none → self.retry = none → n = self.serialize.length) := by
  have hcomment := length_comment_le self.comment
  have hretry := length_retry_le h
  rw [length_serialize]
  refine ⟨_, estimateWireLen_eq self, ?_, fun hnone hnone' ↦ ?_⟩
  · omega
  · rw [hnone, hnone', Option.elim_none, Option.elim_none, Option.elim_none, Option.elim_none]
    omega

/-- **The estimate is enough**: for an event built by any calls no subtraction underflows, the
estimate is at least the length, and exactly the length without a comment and a time, and the buffer
is never allocated again. -/
theorem serialize_estimated (grow : ℕ → ℕ) (calls : List Call) :
    ∃ n, (build calls).estimateWireLen = some n ∧ (build calls).serialize.length ≤ n ∧
      ((build calls).comment = none → (build calls).retry = none →
        n = (build calls).serialize.length) ∧
      (build calls).serializeBuffer grow = some ⟨(build calls).serialize, n, 0⟩ := by
  obtain ⟨n, hn, hle, hexact⟩ := exists_estimateWireLen (retry_build_lt calls)
  refine ⟨n, hn, hle, hexact, ?_⟩
  have hfits : (GrowBuffer.withCapacity n : GrowBuffer UInt8).items.length +
      (build calls).writes.flatten.length ≤ n := by
    rw [flatten_writes]
    exact Nat.le_trans (Nat.le_of_eq (Nat.zero_add _)) hle
  rw [serializeBuffer, hn, Option.map_some, GrowBuffer.extendAll_of_le grow hfits, flatten_writes]
  rfl

/-- A comment of two lines is estimated at one byte too much. -/
example : (build [.comment "a\nb".toList]).estimateWireLen =
    some ((build [.comment "a\nb".toList]).serialize.length + 1) := by
  decide

end Sse.Event
