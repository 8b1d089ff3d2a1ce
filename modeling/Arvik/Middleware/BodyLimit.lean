import Arvik.Core.Body

/-!
# The request body limit

`RequestBodyLimitLayer` refuses a request that declares too long a body, and otherwise passes the
body on under a counting cap: a reader gets `BodyTooLarge` instead of the data frame that crosses
the limit. What a response of the inner service is, a plain value or a recorded one, is left to the
monad `m`.

## The counter

The cap counts in a machine word, and it goes on counting after it has reported an error: the frame
that crossed the limit is lost, its length is not. So a stream of `2 ^ 64` bytes brings the counter
back to zero, and the model counts in `UInt64` for that reason. What a reader meets is therefore
said by two tests that walk over the stream with such a counter. `LimitedBody.passes` holds of a
stream that a reader gets in full, without an error; `LimitedBody.reported` holds of a stream of
which a reader with a limit of its own is told that it is over a limit. Neither speaks of the cap,
both are tests on the frames and on the limits.

A reader with a limit of its own counts the same data from the same start, so its counter and that
of the cap agree as long as it reads: `LimitedBody.readFrames_polls` needs only one counter for
both.
-/

variable {H E : Type} [Multimap H HeaderName HeaderValue] [Extensions E]

/-- The body length a request declares, as a `w`-bit number. -/
def declaredLength (w : ℕ) (headers : H) : Option ℕ :=
  ((Multimap.get headers HeaderName.contentLength).bind HeaderValue.toStr).bind
    (Text.parseUnsigned w)

/-! ### The capped stream -/

/-- A body under a cap: the inner body, the cap, and the data read so far. -/
structure LimitedBody (H : Type) where
  inner : Body H
  limit : UInt64
  read : UInt64 := 0

namespace LimitedBody

variable {H : Type}

/-- One poll, given the answer of the inner body: the counter grows by the data, then it is compared
with the limit. -/
def pollFrame (limit read : UInt64) :
    Except BoxError (Frame H) → Except BoxError (Frame H) × UInt64
  | .ok (.data bytes) =>
    let read := read + UInt64.ofNat bytes.length
    if limit < read then (.error .bodyTooLarge, read) else (.ok (.data bytes), read)
  | other => (other, read)

/-- The answers to the polls of a capped stream. -/
def polls (limit read : UInt64) : Polls H → Polls H
  | [] => []
  | answer :: rest =>
    (pollFrame limit read answer).1 :: polls limit (pollFrame limit read answer).2 rest

/-- The capped body; its size hint is that of the inner body. -/
def toBody (self : LimitedBody H) : Body H where
  polls := polls self.limit self.read self.inner.polls
  sizeHint := self.inner.sizeHint

end LimitedBody

/-! ### The layer -/

/-- The refusal of a request by its declared length. -/
def payloadTooLarge (limit : UInt64) : Response H E (Body H) where
  status := .payloadTooLarge
  headers := Multimap.append Multimap.empty HeaderName.contentType
    HeaderValue.applicationJson
  extensions := Extensions.empty
  body := Body.fromBytes (Text.utf8
    ("\x7b\"error\":\"Payload Too Large\",\"code\":413,\"limit_bytes\":".toList ++
      Nat.toDigits 10 limit.toNat ++ "\x7d".toList))

/-- A layer limiting request bodies to `limit` bytes. -/
structure RequestBodyLimitLayer where
  limit : UInt64

/-- A request through the layer. -/
def RequestBodyLimitLayer.call {m : Type → Type} [Monad m] (self : RequestBodyLimitLayer)
    (inner : Request H E (Body H) → m (Response H E (Body H))) (req : Request H E (Body H)) :
    m (Response H E (Body H)) :=
  if (declaredLength 64 req.headers).any (self.limit.toNat < ·) then
    pure (payloadTooLarge self.limit)
  else
    let (parts, body) := req.intoRequestParts
    inner (Request.fromRequestParts parts (LimitedBody.mk body self.limit 0).toBody)

/-- A layer setting the limit of the buffering extractors. -/
structure DefaultBodyLimitLayer where
  limit : UInt64

/-- A request through the layer. -/
def DefaultBodyLimitLayer.call [Extensions.Slot E DefaultBodyLimit] {m : Type → Type}
    (self : DefaultBodyLimitLayer)
    (inner : Request H E (Body H) → m (Response H E (Body H))) (req : Request H E (Body H)) :
    m (Response H E (Body H)) :=
  inner { req with
    extensions := Extensions.Slot.insert req.extensions (DefaultBodyLimit.mk self.limit) }

/-! ### What readers of a capped stream meet -/

namespace LimitedBody

section Polls

variable {H : Type} {limit : UInt64} {read : ℕ}

/-- A frame over the limit is replaced by the error. -/
theorem polls_data_of_lt {bytes : Bytes} (h : limit.toNat < (read + bytes.length) % 2 ^ 64)
    (rest : Polls H) :
    polls limit (UInt64.ofNat read) (.ok (.data bytes) :: rest) =
      .error .bodyTooLarge :: polls limit (UInt64.ofNat (read + bytes.length)) rest := by
  rw [polls, pollFrame]
  simp only [if_pos ((UInt64.lt_ofNat_add_iff _).2 h), UInt64.ofNat_add]

/-- A frame within the limit passes. -/
theorem polls_data_of_le {bytes : Bytes} (h : (read + bytes.length) % 2 ^ 64 ≤ limit.toNat)
    (rest : Polls H) :
    polls limit (UInt64.ofNat read) (.ok (.data bytes) :: rest) =
      .ok (.data bytes) :: polls limit (UInt64.ofNat (read + bytes.length)) rest := by
  rw [polls, pollFrame]
  simp only [if_neg (mt (UInt64.lt_ofNat_add_iff _).1 (Nat.not_lt.2 h)), UInt64.ofNat_add]

end Polls

section Readers

variable {H : Type}

/-- A stream passes the cap in full: it does not fail, and the counter is within the limit at the
end of each of its data frames. -/
def passes (limit read : UInt64) : Polls H → Bool
  | [] => true
  | .error _ :: _ => false
  | .ok (.trailers _) :: rest => passes limit read rest
  | .ok (.data bytes) :: rest =>
    !decide (limit < read + UInt64.ofNat bytes.length) &&
      passes limit (read + UInt64.ofNat bytes.length) rest

/-- A reader with a limit of its own, who takes trailers for an error, is told that a stream under
the cap is over a limit: the cap's or its own. -/
def reported (limit extractor read : UInt64) : Polls H → Bool
  | [] => false
  | .error e :: _ => e = .bodyTooLarge
  | .ok (.trailers _) :: _ => false
  | .ok (.data bytes) :: rest =>
    decide (limit < read + UInt64.ofNat bytes.length) ||
      decide (extractor < read + UInt64.ofNat bytes.length) ||
        reported limit extractor (read + UInt64.ofNat bytes.length) rest

variable {limit read : UInt64}

/-- What passes in full is read as complete, and nothing else is. -/
theorem isOk_collect_polls (stream : Polls H) :
    (Body.collect (polls limit read stream)).isOk = passes limit read stream := by
  induction stream generalizing read with
  | nil => rfl
  | cons answer rest ih =>
    match answer with
    | .error e => rfl
    | .ok (.trailers headers) => exact ih
    | .ok (.data bytes) =>
      rw [polls, pollFrame, passes, ← ih]
      split
      · next hcross => simp [Body.collect, hcross, Except.isOk, Except.toBool]
      · next hfits =>
        rw [Body.collect, decide_eq_false hfits]
        cases Body.collect (polls limit (read + UInt64.ofNat bytes.length) rest) <;> rfl

/-- A limited reading of a stream that does not pass fails, with a report under an exact
condition. -/
theorem readFrames_polls {stream : Polls H} (extractor : UInt64) (frames : List Bytes)
    (h : passes limit read stream = false) :
    ∃ e, Body.readFrames extractor frames read (polls limit read stream) = .error e ∧
      e.isPayloadTooLarge = reported limit extractor read stream := by
  induction stream generalizing read frames with
  | nil => cases h
  | cons answer rest ih =>
    match answer with
    | .error e => exact ⟨_, rfl, rfl⟩
    | .ok (.trailers headers) => exact ⟨_, rfl, rfl⟩
    | .ok (.data bytes) =>
      rw [polls, pollFrame, reported]
      rw [passes] at h
      split
      · next hcross =>
        refine ⟨_, rfl, ?_⟩
        rw [decide_eq_true hcross]
        rfl
      · next hfits =>
        rw [decide_eq_false hfits, Bool.not_false, Bool.true_and] at h
        rw [decide_eq_false hfits, Bool.false_or, Body.readFrames]
        split
        · next hown =>
          refine ⟨_, rfl, ?_⟩
          rw [decide_eq_true hown]
          rfl
        · next hown =>
          rw [decide_eq_false hown, Bool.false_or]
          exact ih _ h

/-- A stream whose data is over the limit does not pass, unless it wraps the counter. -/
theorem passes_eq_false {stream : Polls H} {total : ℕ} (htotal : total ≤ limit.toNat)
    (hover : limit.toNat < total + Body.received stream)
    (hshort : total + Body.received stream < 2 ^ 64) :
    passes limit (UInt64.ofNat total) stream = false := by
  induction stream generalizing total with
  | nil => exact absurd hover (Nat.not_lt.2 htotal)
  | cons answer rest ih =>
    match answer with
    | .error e => rfl
    | .ok (.trailers headers) => exact ih htotal hover hshort
    | .ok (.data bytes) =>
      rw [Body.received, ← Nat.add_assoc] at hover hshort
      have hmod : (total + bytes.length) % 2 ^ 64 = total + bytes.length :=
        Nat.mod_eq_of_lt (by omega)
      rw [passes]
      rcases Nat.lt_or_ge limit.toNat (total + bytes.length) with hcross | hfits
      · rw [decide_eq_true ((UInt64.lt_ofNat_add_iff _).2 (by rwa [hmod]))]
        rfl
      · rw [← UInt64.ofNat_add, ih hfits hover hshort, Bool.and_false]

variable {body : Body H}

/-- A capped body reads as complete if its stream passes in full. -/
theorem isOk_toBytes_toBody :
    (LimitedBody.mk body limit 0).toBody.toBytes.isOk = passes limit 0 body.polls :=
  isOk_collect_polls body.polls

/-- Collecting a capped body that does not pass fails. -/
theorem toBytes_toBody (h : passes limit 0 body.polls = false) :
    ∃ e, (LimitedBody.mk body limit 0).toBody.toBytes = .error e := by
  rw [← isOk_toBytes_toBody] at h
  cases hcollected : (LimitedBody.mk body limit 0).toBody.toBytes with
  | error e => exact ⟨e, rfl⟩
  | ok bytes =>
    rw [hcollected] at h
    cases h

end Readers

end LimitedBody

section Limited

variable {H : Type} {limit : UInt64} {body : Body H}

/-- The limited reading of a capped body reports a body over a limit. -/
def OverLimitReported (limit extractor : UInt64) (body : Body H) : Prop :=
  body.sizeHint.upper.any (extractor.toNat < ·) ∨
    LimitedBody.reported limit extractor 0 body.polls

instance (limit extractor : UInt64) (body : Body H) :
    Decidable (OverLimitReported limit extractor body) :=
  inferInstanceAs (Decidable (_ ∨ _))

/-- A limited reading of a capped body that does not pass fails, with a report under an exact
condition. -/
theorem LimitedBody.toBytesLimited_toBody (extractor : UInt64)
    (h : LimitedBody.passes limit 0 body.polls = false) :
    ∃ e, (LimitedBody.mk body limit 0).toBody.toBytesLimited extractor = .error e ∧
      (e.isPayloadTooLarge ↔ OverLimitReported limit extractor body) := by
  rw [Body.toBytesLimited]
  split
  · next hhint => exact ⟨_, rfl, iff_of_true rfl (Or.inl hhint)⟩
  · next hhint =>
    obtain ⟨e, hread, he⟩ := LimitedBody.readFrames_polls extractor [] h
    refine ⟨e, by rw [LimitedBody.toBody, hread]; rfl, ?_⟩
    rw [he, OverLimitReported]
    exact ⟨Or.inr, fun h ↦ h.resolve_left hhint⟩

end Limited
