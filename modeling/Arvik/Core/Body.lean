import Arvik.Core.ResponseBuilder

/-!
# Bodies

A body is what a reader meets who polls it to the end: a sequence of frames, each carrying data or
trailers, in which any poll may answer an error instead; and the size hint given before the first
poll. The constructors and the wrappers of the framework are functions on such sequences.

## Two ways to collect a body

`Body.toBytes` takes all of it, `Body.toBytesLimited` gives up as soon as the size hint or the data
received so far passes a limit. The limited reading counts what it has received in a machine word,
and so does the cap that the middleware puts around a body. Sizes are words of 64 bits, as on the
platforms a server runs on.

A counter that starts again at zero after `2 ^ 64` bytes is no idle worry: a frame is a handle to a
buffer, the same buffer can be sent any number of times, and the largest limit, which is how the
default one is switched off, is passed by no counter at all. So the counters are words here too. How
they compare with a limit is said once, by `UInt64.lt_ofNat_add_iff`: a counter that has seen
`total` bytes and is given `n` more is over the limit if `total + n`, reduced modulo `2 ^ 64`, is.
Every statement about a limit goes through that lemma and is about natural numbers afterwards.
-/

/-- A counter of bytes against a limit: what counts is the total up to multiples of `2 ^ 64`. -/
theorem UInt64.lt_ofNat_add_iff {limit : UInt64} {total : ℕ} (n : ℕ) :
    limit < UInt64.ofNat total + UInt64.ofNat n ↔ limit.toNat < (total + n) % 2 ^ 64 := by
  rw [← UInt64.ofNat_add, UInt64.lt_iff_toNat_lt, UInt64.toNat_ofNat']

/-- Within the limit the counter is the total. -/
theorem UInt64.mod_eq_of_le_toNat {limit : UInt64} {total : ℕ} (h : total ≤ limit.toNat) :
    total % 2 ^ 64 = total :=
  Nat.mod_eq_of_lt (Nat.lt_of_le_of_lt h limit.toNat_lt)

/-- The error of a body stream, its type erased: a reader can only ask whether it is
`BodyTooLarge`, and print it. -/
inductive BoxError
  /-- The body exceeded a limit while being read. -/
  | bodyTooLarge
  | other (text : Str)
  deriving DecidableEq

/-- The text of an error. -/
def BoxError.toText : BoxError → Str
  | bodyTooLarge => "request body exceeds the maximum allowed size".toList
  | other text => text

/-- A frame of a body; `H` is the type of header maps. -/
inductive Frame (H : Type)
  | data (bytes : Bytes)
  | trailers (headers : H)
  deriving DecidableEq

/-- The answers to the polls of a body, in order. -/
abbrev Polls (H : Type) := List (Except BoxError (Frame H))

/-- Bounds on the data still to come. -/
structure SizeHint where
  lower : ℕ := 0
  upper : Option ℕ := none
  deriving DecidableEq

/-- The number of bytes still to come, if the bounds say it. -/
def SizeHint.exact (self : SizeHint) : Option ℕ :=
  if some self.lower = self.upper then self.upper else none

/-- A body stream. -/
structure Body (H : Type) where
  polls : Polls H
  sizeHint : SizeHint := {}

namespace Body

variable {H : Type}

/-- The body without data. -/
def empty : Body H where
  polls := []
  sizeHint := ⟨0, some 0⟩

/-- The body of one buffer: a single frame, unless the buffer is empty. -/
def fromBytes (bytes : Bytes) : Body H where
  polls := if bytes = [] then [] else [.ok (.data bytes)]
  sizeHint := ⟨bytes.length, some bytes.length⟩

instance : FromBytes (Body H) := ⟨empty, fromBytes⟩

/-! ### Collecting a body -/

/-- All data of a stream, trailers skipped; the first error ends the reading. -/
def collect : Polls H → Except BoxError Bytes
  | [] => .ok []
  | .error e :: _ => .error e
  | .ok (.trailers _) :: rest => collect rest
  | .ok (.data bytes) :: rest => (collect rest).map (bytes ++ ·)

/-- Collect the entire body. -/
def toBytes (self : Body H) : Except BoxError Bytes :=
  collect self.polls

@[simp]
theorem toBytes_fromBytes (bytes : Bytes) : (fromBytes bytes : Body H).toBytes = .ok bytes := by
  rw [toBytes, fromBytes]
  split
  · next h => rw [h]; rfl
  · exact congrArg Except.ok (List.append_nil bytes)

end Body

/-- The failure of a limited reading. -/
inductive BodyLimitError
  /-- The reader's own limit was passed. -/
  | tooLarge
  /-- The stream failed. -/
  | read (e : BoxError)
  deriving DecidableEq

namespace BodyLimitError

/-- The failure is due to a body over a limit: the reader's own, or the stream's. -/
def isPayloadTooLarge : BodyLimitError → Bool
  | tooLarge => true
  | read e => e = .bodyTooLarge

/-- The text of a failure. -/
def toText : BodyLimitError → Str
  | tooLarge => "request body exceeds the maximum allowed size".toList
  | read e => "failed to read request body: ".toList ++ e.toText

end BodyLimitError

namespace Body

variable {H : Type}

/-- The loop of a limited reading, with the data frames and the total read so far. A trailers
frame fails it. -/
def readFrames (limit : UInt64) (frames : List Bytes) (total : UInt64) :
    Polls H → Except BodyLimitError (List Bytes)
  | [] => .ok frames
  | .error e :: _ => .error (.read e)
  | .ok (.trailers _) :: _ => .error (.read (.other "unexpected body trailer".toList))
  | .ok (.data bytes) :: rest =>
    if limit < total + UInt64.ofNat bytes.length then .error .tooLarge
    else readFrames limit (frames ++ [bytes]) (total + UInt64.ofNat bytes.length) rest

/-- Collect the body, up to a limit. -/
def toBytesLimited (self : Body H) (limit : UInt64) : Except BodyLimitError Bytes :=
  -- a size hint already over the limit: the stream is not read at all
  if self.sizeHint.upper.any (limit.toNat < ·) then .error .tooLarge
  else
    (readFrames limit [] 0 self.polls).map fun frames ↦
      match frames with
      | [] => []
      | [frame] => frame
      | frames => frames.flatten

/-- A frame that brings the counter over the limit ends the loop. -/
theorem readFrames_data_of_lt {limit : UInt64} {total : ℕ} {bytes : Bytes}
    (h : limit.toNat < (total + bytes.length) % 2 ^ 64) (frames : List Bytes) (rest : Polls H) :
    readFrames limit frames (UInt64.ofNat total) (.ok (.data bytes) :: rest) =
      .error .tooLarge := by
  rw [readFrames, if_pos ((UInt64.lt_ofNat_add_iff _).2 h)]

/-- A frame that leaves the counter within the limit is kept. -/
theorem readFrames_data_of_le {limit : UInt64} {total : ℕ} {bytes : Bytes}
    (h : (total + bytes.length) % 2 ^ 64 ≤ limit.toNat) (frames : List Bytes) (rest : Polls H) :
    readFrames limit frames (UInt64.ofNat total) (.ok (.data bytes) :: rest) =
      readFrames limit (frames ++ [bytes]) (UInt64.ofNat (total + bytes.length)) rest := by
  rw [readFrames, if_neg (mt (UInt64.lt_ofNat_add_iff _).1 (Nat.not_lt.2 h)), UInt64.ofNat_add]

/-! ### The data of a stream -/

/-- The data a reader receives before the stream fails. -/
def received : Polls H → ℕ
  | [] => 0
  | .error _ :: _ => 0
  | .ok (.trailers _) :: rest => received rest
  | .ok (.data bytes) :: rest => bytes.length + received rest

end Body

/-! ### The default limit of the buffering extractors -/

/-- The extension that overrides the default limit. -/
structure DefaultBodyLimit where
  limit : UInt64
  deriving DecidableEq

/-- 2 MiB. -/
def defaultBodyLimit : UInt64 := 2 * 1024 * 1024

/-- The limit in force for a request. -/
def resolveLimit {E : Type} [Extensions E] [Extensions.Slot E DefaultBodyLimit]
    (extensions : E) : UInt64 :=
  ((Extensions.Slot.get extensions : Option DefaultBodyLimit).map (·.limit)).getD defaultBodyLimit
