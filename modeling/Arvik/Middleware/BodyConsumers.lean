import Arvik.Extract.Multipart
import Arvik.Middleware.Compression
import Arvik.Middleware.MapBody
import Mathlib.Control.Monad.Writer

/-!
# Bodies over the limit, and what their consumers make of them

`RequestBodyLimitLayer` signals an over-long body as an error inside the body stream. This module
follows that error into every consumer of the framework: the handlers behind an extractor
(`BodyHandler`), and the layers that read the body themselves (`Consumer`).

To see what a consumer does with such a body, services run in a writer monad that records each
invocation with the body it was given. `Refuses` is what is expected of them: a 413, and no
invocation with a body that reads as complete.

## Who refuses what

`call_refuses_iff` says which consumers refuse which requests, for every body.

* None does if the stream passes the cap in full. That a body over the limit does not pass is the
  work of the cap's counter, which fails at it only where it wraps (`LimitedBody.passes_eq_false`).
* The buffering extractors do, unless a trailers frame comes before the error: they report the
  trailers instead.
* The multipart parser does when it stops at a limit of its own. Of the cap's error it only keeps
  the text, and answers with a 400.
* Decompression does when there is nothing to decompress; otherwise it answers with a 400.
* The body transformation never does: it replaces a body it could not collect by no bytes at all,
  and goes on.

## How the proof goes

Under a cap that the stream does not pass, every way to read the body fails, so each handler answers
with its rejection, and the question is which status the rejection has. The stack is an induction:
a layer that passes the body on is an invocation that presents nothing complete, and leaves the
question to what stands below it.
-/

/-! ### Recorded invocations -/

/-- What a service or a handler was given to work on. -/
inductive Presentation (H : Type)
  /-- A service was called with this body. -/
  | stream (body : Body H)
  /-- A handler was given a value made of the whole body. -/
  | whole

/-- What was presented reads as a complete body: no error comes before the end. -/
def Presentation.IsComplete {H : Type} : Presentation H → Prop
  | stream body => body.toBytes.isOk
  | whole => True

instance {H : Type} : DecidablePred (Presentation.IsComplete (H := H))
  | .stream body => inferInstanceAs (Decidable (body.toBytes.isOk = true))
  | .whole => inferInstanceAs (Decidable True)

/-- Computations that record what was presented on the way. -/
abbrev Recorded (H : Type) := Writer (List (Presentation H))

variable {H E : Type}

/-- A 413, and nothing was presented as a complete body. The second half is about what a layer or a
handler was given before the answer was made. -/
def Refuses (result : Recorded H (Response H E (Body H))) : Prop :=
  result.run.1.status = .payloadTooLarge ∧ ∀ p ∈ result.run.2, ¬ p.IsComplete

instance (result : Recorded H (Response H E (Body H))) : Decidable (Refuses result) :=
  inferInstanceAs (Decidable (_ ∧ _))

/-- A service invoked with a request. -/
def invoked (req : Request H E (Body H)) (result : Recorded H (Response H E (Body H))) :
    Recorded H (Response H E (Body H)) := do
  tell [Presentation.stream req.body]
  result

/-- A handler invoked with a value made of the whole body. -/
def handled {T : Type} (handler : T → Response H E (Body H)) (value : T) :
    Recorded H (Response H E (Body H)) := do
  tell [Presentation.whole]
  pure (handler value)

@[simp]
theorem refuses_pure (response : Response H E (Body H)) :
    Refuses (pure response) ↔ response.status = .payloadTooLarge :=
  and_iff_left fun _ hp ↦ absurd hp List.not_mem_nil

@[simp]
theorem refuses_invoked (req : Request H E (Body H)) (result : Recorded H (Response H E (Body H))) :
    Refuses (invoked req result) ↔ ¬ req.body.toBytes.isOk ∧ Refuses result := by
  show (_ ∧ ∀ p ∈ Presentation.stream req.body :: result.run.2, ¬ p.IsComplete) ↔ _
  rw [List.forall_mem_cons]
  exact and_left_comm

@[simp]
theorem not_refuses_handled {T : Type} (handler : T → Response H E (Body H)) (value : T) :
    ¬ Refuses (handled handler value) :=
  fun h ↦ h.2 .whole List.mem_cons_self trivial

/-! ### Handlers -/

/-- A handler behind one of the extractors that read the body. The multipart handler reads the
form to its end and answers a failure with the response the failure stands for. -/
inductive BodyHandler (H E : Type) : Type 1
  | bytes (handler : Bytes → Response H E (Body H))
  | string (handler : Str → Response H E (Body H))
  | json {T : Type} (fromSlice : Bytes → Except Str T) (handler : T → Response H E (Body H))
  | form {T : Type} (fromBytes : Bytes → Except Str T) (handler : T → Response H E (Body H))
  | validatedJson {T : Type} (fromSlice : Bytes → Except Str T)
      (validate : T → Option ValidationErrors) (handler : T → Response H E (Body H))
  | validatedForm {T : Type} (fromBytes : Bytes → Except Str T)
      (validate : T → Option ValidationErrors) (handler : T → Response H E (Body H))
  | multipart (handler : List (FieldMetadata × Bytes) → Response H E (Body H))

section Consumers

variable [Multimap H HeaderName HeaderValue] [Extensions E] [Extensions.Slot E DefaultBodyLimit]
  [Extensions.Slot E MultipartConfig] [Extensions.Slot E MultipartConstraints]
  [ErrorLib] [MimeLib] [MulterLib] [DecoderLib]

/-- A request handled. -/
def BodyHandler.serve (req : Request H E (Body H)) :
    BodyHandler H E → Recorded H (Response H E (Body H))
  | bytes handler => handleExtracted Error.intoResponse (handled handler) (Bytes.fromRequest req)
  | string handler => handleExtracted Error.intoResponse (handled handler) (Str.fromRequest req)
  | json fromSlice handler =>
    handleExtracted JsonRejection.intoResponse (handled handler) (Json.fromRequest fromSlice req)
  | form fromBytes handler =>
    handleExtracted FormRejection.intoResponse (handled handler) (Form.fromRequest fromBytes req)
  | validatedJson fromSlice validate handler =>
    handleExtracted ValidationRejection.intoResponse (handled handler)
      (ValidatedJson.fromRequest fromSlice validate req)
  | validatedForm fromBytes validate handler =>
    handleExtracted ValidationRejection.intoResponse (handled handler)
      (ValidatedForm.fromRequest fromBytes validate req)
  | multipart handler =>
    handleExtracted MultipartRejection.intoResponse
      (fun form ↦ handleExtracted MultipartError.intoResponse (handled handler) form.fields)
      (Multipart.fromRequest req)

/-- The limits of the form are met before the cap is: by the declared length, or by the parser on
the chunks that come through the cap. -/
def FormLimitMet (limit : UInt64) (config : MultipartConfig) (req : Request H E (Body H)) : Prop :=
  validateMultipartRequest req config = .error .payloadTooLarge ∨
    ∃ boundary, validateMultipartRequest req config = .ok boundary ∧
      (MulterLib.read boundary config.constraints.maxTotalSize config.constraints.maxFieldSize
        (cappedChunks limit 0 req.body.polls)).ExceedsLimit config.constraints.maxFields 0

/-- The condition under which a handler answers a body that does not pass the cap with a 413. -/
def BodyHandler.Reports (limit : UInt64) (req : Request H E (Body H)) : BodyHandler H E → Prop
  | bytes _ | string _ => OverLimitReported limit (resolveLimit req.extensions) req.body
  | json _ _ | validatedJson _ _ _ =>
    jsonContentType req.headers ∧ OverLimitReported limit (resolveLimit req.extensions) req.body
  | form _ _ | validatedForm _ _ _ =>
    formContentType req.headers ∧ OverLimitReported limit (resolveLimit req.extensions) req.body
  | multipart _ => FormLimitMet limit (Multipart.configOf req.extensions) req

/-! ### Layers over a handler -/

/-- What can stand under the limit: a handler, or a layer that reads the body, or sets the limit of
the extractors, over more of them. -/
inductive Consumer (H E : Type) : Type 1
  | endpoint (handler : BodyHandler H E)
  | decompression (layer : DecompressionLayer) (inner : Consumer H E)
  | mapRequestBody (layer : MapRequestBodyLayer) (inner : Consumer H E)
  | defaultBodyLimit (layer : DefaultBodyLimitLayer) (inner : Consumer H E)

/-- A request served. -/
def Consumer.serve : Consumer H E → Request H E (Body H) → Recorded H (Response H E (Body H))
  | endpoint handler, req => invoked req (handler.serve req)
  | decompression layer inner, req => invoked req (layer.call inner.serve req)
  | mapRequestBody layer inner, req => invoked req (layer.call inner.serve req)
  | defaultBodyLimit layer inner, req => invoked req (layer.call inner.serve req)

/-- The condition under which a consumer answers a body that does not pass the cap with a 413, and
presents it nowhere as complete. -/
def Consumer.Reports (limit : UInt64) : Consumer H E → Request H E (Body H) → Prop
  | endpoint handler, req => handler.Reports limit req
  | decompression _ inner, req =>
    DecompressionLayer.encoding req.headers = none ∧ inner.Reports limit req
  | mapRequestBody _ _, _ => False
  | defaultBodyLimit layer inner, req =>
    inner.Reports limit { req with
      extensions := Extensions.Slot.insert req.extensions (DefaultBodyLimit.mk layer.limit) }

/-- The request passed on by the limit: its body is under a cap. -/
def capped (limit : UInt64) (req : Request H E (Body H)) : Request H E (Body H) :=
  Request.fromRequestParts req.intoRequestParts.1 (LimitedBody.mk req.body limit 0).toBody

/-! ### Handlers on a body over the cap -/

section Handlers

variable {limit : UInt64} {req : Request H E (Body H)} {T R : Type}

omit [Multimap H HeaderName HeaderValue] [Extensions E] [ErrorLib] [MimeLib] [MulterLib]
  [DecoderLib] [Extensions.Slot E DefaultBodyLimit] [Extensions.Slot E MultipartConfig]
  [Extensions.Slot E MultipartConstraints]

/-- A rejected extraction is refused if it is answered with a 413, a successful one never. -/
theorem refuses_handleExtracted (intoResponse : R → Response H E (Body H))
    (handler : T → Response H E (Body H)) (extracted : Except R T) :
    Refuses (handleExtracted intoResponse (handled handler) extracted) ↔
      ∃ rejection, extracted = .error rejection ∧
        (intoResponse rejection).status = .payloadTooLarge := by
  rcases extracted with rejection | value
  · simp [handleExtracted]
  · simp [handleExtracted]

variable [Extensions E] [Extensions.Slot E DefaultBodyLimit]

/-- Reading the body of a capped request fails, if the body does not pass the cap, with a report
under an exact condition. -/
theorem readBody_capped (h : LimitedBody.passes limit 0 req.body.polls = false) :
    ∃ e, readBody (capped limit req) = .error e ∧
      (e.isPayloadTooLarge ↔ OverLimitReported limit (resolveLimit req.extensions) req.body) :=
  LimitedBody.toBytesLimited_toBody _ h

/-- The rejection of a failed reading by the core extractors is a 413 exactly on a report. -/
theorem bodyLimitRejection_status (e : BodyLimitError) :
    (bodyLimitRejection e).status = .payloadTooLarge ↔ e.isPayloadTooLarge := by
  rw [bodyLimitRejection]
  split
  · next h => exact iff_of_true rfl h
  · next h => exact iff_of_false (by decide) h

/-- The rejection of a failed reading by an extractor that checks the content type is a 413
exactly if the content type is accepted and the failure reported. -/
theorem bufferedFromRequest_capped {accepts : H → Bool} {notAccepted tooLarge : R}
    {readFailed deserializationFailed : Str → R} {deserialize : Bytes → Except Str T}
    {status : R → StatusCode} (hnot : status notAccepted ≠ .payloadTooLarge)
    (htoo : status tooLarge = .payloadTooLarge)
    (hread : ∀ msg, status (readFailed msg) ≠ .payloadTooLarge)
    (h : LimitedBody.passes limit 0 req.body.polls = false) :
    ∃ rejection, bufferedFromRequest accepts notAccepted tooLarge readFailed deserializationFailed
        deserialize (capped limit req) = .error rejection ∧
      (status rejection = .payloadTooLarge ↔ accepts req.headers ∧
        OverLimitReported limit (resolveLimit req.extensions) req.body) := by
  obtain ⟨e, he, hreported⟩ := readBody_capped h
  refine ⟨_, bufferedFromRequest_of_error he, ?_⟩
  rw [← hreported]
  show status (if !accepts req.headers then notAccepted
    else if e.isPayloadTooLarge then tooLarge else readFailed e.toText) = _ ↔ _
  split
  · next hacc => simp_all
  · next hacc =>
    split
    · next hlarge => simp_all
    · next hlarge => simp_all

/-- The core extractors on a body over the cap. -/
theorem refuses_core_capped [ErrorLib] [Multimap H HeaderName HeaderValue]
    {f : Except BodyLimitError Bytes → Except Error T}
    (hf : ∀ e, f (.error e) = .error (bodyLimitRejection e))
    (handler : T → Response H E (Body H)) (h : LimitedBody.passes limit 0 req.body.polls = false) :
    Refuses (handleExtracted Error.intoResponse (handled handler)
        (f (readBody (capped limit req)))) ↔
      OverLimitReported limit (resolveLimit req.extensions) req.body := by
  obtain ⟨e, he, hreported⟩ := readBody_capped h
  rw [he, hf, refuses_handleExtracted, ← hreported, ← bodyLimitRejection_status]
  simp

/-- The extractors that check the content type on a body over the cap. -/
theorem refuses_buffered_capped {accepts : H → Bool} {status : R → StatusCode}
    {intoResponse : R → Response H E (Body H)} {extracted : Except R T}
    (hstatus : ∀ rejection, (intoResponse rejection).status = status rejection)
    (handler : T → Response H E (Body H))
    (h : ∃ rejection, extracted = .error rejection ∧
      (status rejection = .payloadTooLarge ↔ accepts req.headers ∧
        OverLimitReported limit (resolveLimit req.extensions) req.body)) :
    Refuses (handleExtracted intoResponse (handled handler) extracted) ↔
      accepts req.headers ∧ OverLimitReported limit (resolveLimit req.extensions) req.body := by
  obtain ⟨rejection, rfl, hreported⟩ := h
  rw [refuses_handleExtracted, ← hreported]
  simp [hstatus]

/-- `Json` on a body over the cap. -/
theorem Json.fromRequest_capped [Multimap H HeaderName HeaderValue] [MimeLib]
    (fromSlice : Bytes → Except Str T) (h : LimitedBody.passes limit 0 req.body.polls = false) :
    ∃ rejection, Json.fromRequest fromSlice (capped limit req) = .error rejection ∧
      (rejection.status = .payloadTooLarge ↔ jsonContentType req.headers ∧
        OverLimitReported limit (resolveLimit req.extensions) req.body) :=
  bufferedFromRequest_capped (by decide) rfl
    (fun _ ↦ (by decide : StatusCode.badRequest ≠ StatusCode.payloadTooLarge)) h

/-- `Form` on a body over the cap. -/
theorem Form.fromRequest_capped [Multimap H HeaderName HeaderValue] [MimeLib]
    (fromBytes : Bytes → Except Str T) (h : LimitedBody.passes limit 0 req.body.polls = false) :
    ∃ rejection, Form.fromRequest fromBytes (capped limit req) = .error rejection ∧
      (rejection.status = .payloadTooLarge ↔ formContentType req.headers ∧
        OverLimitReported limit (resolveLimit req.extensions) req.body) :=
  bufferedFromRequest_capped (by decide) rfl
    (fun _ ↦ (by decide : StatusCode.badRequest ≠ StatusCode.payloadTooLarge)) h

end Handlers

section Served

variable {limit : UInt64} {req : Request H E (Body H)}

omit [Extensions.Slot E DefaultBodyLimit] [ErrorLib] [MimeLib] [DecoderLib] in
/-- The multipart handler on a capped body. -/
theorem refuses_multipart_capped
    (handler : List (FieldMetadata × Bytes) → Response H E (Body H)) :
    Refuses (handleExtracted MultipartRejection.intoResponse
        (fun form ↦ handleExtracted MultipartError.intoResponse (handled handler) form.fields)
        (Multipart.fromRequest (capped limit req))) ↔
      FormLimitMet limit (Multipart.configOf req.extensions) req := by
  -- the checks before the body do not see the cap
  have hvalid : validateMultipartRequest (capped limit req) (Multipart.configOf req.extensions) =
      validateMultipartRequest req (Multipart.configOf req.extensions) := rfl
  have hextensions : (capped limit req).extensions = req.extensions := rfl
  rw [FormLimitMet, Multipart.fromRequest, Multipart.fromRequestWithConfig, hextensions, hvalid]
  rcases validateMultipartRequest req (Multipart.configOf req.extensions) with rejection | boundary
  · simp only [Except.map, handleExtracted, refuses_pure, MultipartRejection.intoResponse,
      rejectionResponse_status, Except.error.injEq, reduceCtorEq, false_and, exists_false,
      or_false]
    exact rejection.status_eq_payloadTooLarge_iff
  · simp only [Except.map, Except.ok.injEq, reduceCtorEq, false_or, exists_eq_left']
    rw [← MulterLib.read_polls]
    exact (refuses_handleExtracted _ _ _).trans (Multipart.fields_payloadTooLarge_iff _)

omit [DecoderLib] in
/-- A handler answers a body over the cap with a 413 exactly if it reports it. -/
theorem BodyHandler.refuses_serve_capped (handler : BodyHandler H E)
    (h : LimitedBody.passes limit 0 req.body.polls = false) :
    Refuses (handler.serve (capped limit req)) ↔ handler.Reports limit req := by
  cases handler with
  | bytes handler => exact refuses_core_capped (fun _ ↦ rfl) handler h
  | string handler =>
    exact refuses_core_capped (f := fun read ↦ Str.ofBody (read.mapError bodyLimitRejection))
      (fun _ ↦ rfl) handler h
  | json fromSlice handler =>
    exact refuses_buffered_capped (fun _ ↦ rfl) handler (Json.fromRequest_capped fromSlice h)
  | form fromBytes handler =>
    exact refuses_buffered_capped (fun _ ↦ rfl) handler (Form.fromRequest_capped fromBytes h)
  | validatedJson fromSlice validate handler =>
    obtain ⟨rejection, hrejection, hreported⟩ := Json.fromRequest_capped fromSlice h
    rw [serve, ValidatedJson.fromRequest, hrejection, Reports, ← hreported]
    exact refuses_pure (rejection.intoResponse : Response H E (Body H))
  | validatedForm fromBytes validate handler =>
    obtain ⟨rejection, hrejection, hreported⟩ := Form.fromRequest_capped fromBytes h
    rw [serve, ValidatedForm.fromRequest, hrejection, Reports, ← hreported]
    exact refuses_pure (rejection.intoResponse : Response H E (Body H))
  | multipart handler => exact refuses_multipart_capped handler

omit [Multimap H HeaderName HeaderValue] [Extensions E] [Extensions.Slot E DefaultBodyLimit]
  [Extensions.Slot E MultipartConfig] [Extensions.Slot E MultipartConstraints] [ErrorLib]
  [MimeLib] [MulterLib] [DecoderLib] in
/-- Under the cap, an invocation by itself presents nothing as complete. -/
theorem refuses_invoked_capped (h : LimitedBody.passes limit 0 req.body.polls = false)
    (result : Recorded H (Response H E (Body H))) :
    Refuses (invoked (capped limit req) result) ↔ Refuses result := by
  have hstream : (capped limit req).body.toBytes.isOk = false :=
    LimitedBody.isOk_toBytes_toBody.trans h
  rw [refuses_invoked, hstream]
  exact and_iff_right Bool.false_ne_true

/-- No consumer refuses a request whose body reads as complete. -/
theorem Consumer.not_refuses_serve (consumer : Consumer H E) (hok : req.body.toBytes.isOk) :
    ¬ Refuses (consumer.serve req) := by
  intro hrefuses
  cases consumer <;> exact ((refuses_invoked _ _).1 hrefuses).1 hok

/-- A consumer refuses a capped request exactly if it reports the body over the cap. -/
theorem Consumer.refuses_serve_capped (consumer : Consumer H E)
    (h : LimitedBody.passes limit 0 req.body.polls = false) :
    Refuses (consumer.serve (capped limit req)) ↔ consumer.Reports limit req := by
  induction consumer generalizing req with
  | endpoint handler =>
    rw [serve, refuses_invoked_capped h]
    exact handler.refuses_serve_capped h
  | decompression layer inner ih =>
    rw [serve, refuses_invoked_capped h, Reports]
    have hencoding : DecompressionLayer.encoding (capped limit req).headers =
        DecompressionLayer.encoding req.headers := rfl
    rcases hnone : DecompressionLayer.encoding req.headers with - | encoding
    · rw [layer.call_of_encoding_eq_none _ (hencoding.trans hnone)]
      exact (ih h).trans (and_iff_right rfl).symm
    · obtain ⟨e, hread⟩ := LimitedBody.toBytes_toBody h
      rw [layer.call_of_toBytes_eq_error _ (hencoding.trans hnone) hread]
      refine iff_of_false (fun hrefuses ↦ ?_) (fun hreports ↦ nomatch hreports.1)
      have hstatus : StatusCode.badRequest = .payloadTooLarge := (refuses_pure _).1 hrefuses
      exact absurd hstatus (by decide)
  | mapRequestBody layer inner =>
    -- the inner service is called with the transform of whatever was collected
    rw [serve, refuses_invoked_capped h]
    refine iff_of_false (inner.not_refuses_serve ?_) id
    show (Body.fromBytes (H := H) _).toBytes.isOk
    rw [Body.toBytes_fromBytes]
    rfl
  | defaultBodyLimit layer inner ih =>
    rw [serve, refuses_invoked_capped h]
    exact @ih ⟨req.inner, Extensions.Slot.insert req.extensions (DefaultBodyLimit.mk layer.limit)⟩ h

/-- The body of a request that does not declare too long a body is refused by the consumers under
the limit exactly if it does not pass the cap and they report that. -/
theorem RequestBodyLimitLayer.call_refuses_iff (layer : RequestBodyLimitLayer)
    (consumer : Consumer H E) (req : Request H E (Body H))
    (hdeclared : ∀ n ∈ declaredLength 64 req.headers, n ≤ layer.limit.toNat) :
    Refuses (layer.call consumer.serve req) ↔
      LimitedBody.passes layer.limit 0 req.body.polls = false ∧
        consumer.Reports layer.limit req := by
  have hpass : ¬ (declaredLength 64 req.headers).any (layer.limit.toNat < ·) := by
    rw [Option.any_eq_true]
    rintro ⟨n, hn, hlt⟩
    exact Nat.not_le_of_lt (of_decide_eq_true hlt) (hdeclared n hn)
  rw [RequestBodyLimitLayer.call, if_neg hpass]
  cases hpasses : LimitedBody.passes layer.limit 0 req.body.polls with
  | true =>
    -- the capped body is presented, and it reads as complete
    refine iff_of_false (consumer.not_refuses_serve ?_) (fun h ↦ Bool.noConfusion h.1)
    exact LimitedBody.isOk_toBytes_toBody.trans hpasses
  | false => exact (consumer.refuses_serve_capped hpasses).trans (and_iff_right rfl).symm

end Served

end Consumers

/-! ### Five bytes under a limit of four -/

section Five

/-- The first failure of a stream. -/
def firstFailure : List (Except Str Bytes) → Option Str
  | [] => none
  | .error e :: _ => some e
  | .ok _ :: chunks => firstFailure chunks

theorem firstFailure_append_error (chunks : List (Except Str Bytes)) (e : Str)
    (rest : List (Except Str Bytes)) :
    firstFailure (chunks ++ .error e :: rest) = firstFailure (chunks ++ [.error e]) := by
  induction chunks with
  | nil => rfl
  | cons chunk chunks ih =>
    rcases chunk with e' | bytes
    · rfl
    · exact ih

/-- A parser that reports the failure of its stream, and takes any other stream for an empty
form. -/
local instance emptyFormParser : MulterLib where
  read _ _ _ chunks :=
    match firstFailure chunks with
    | some e => .failed (.streamReadFailed e)
    | none => .closed
  errorText _ := "failed to read stream".toList
  read_error _ _ _ chunks e rest := by rw [firstFailure_append_error]

local instance noReasons : ErrorLib := ⟨fun _ ↦ none, fun message _ ↦ message⟩

local instance noMime : MimeLib := ⟨fun _ ↦ none⟩

local instance noDecoders : DecoderLib :=
  ⟨fun _ ↦ none, fun _ ↦ none, fun _ ↦ none, fun _ ↦ none⟩

/-- The extensions the extractors look at. -/
abbrev LimitExtensions := Option DefaultBodyLimit × Option MultipartConfig ×
  Option MultipartConstraints

abbrev Headers := AssocList HeaderName HeaderValue

/-- A chunked upload of five bytes, its headers those of a compressed form. -/
def fiveBytes : Request Headers LimitExtensions (Body Headers) :=
  Request.new ⟨.post, { path := "/".toList },
    Multimap.append (Multimap.append Multimap.empty HeaderName.contentEncoding
      HeaderValue.gzip) HeaderName.contentType
      (HeaderValue.fromStatic "multipart/form-data; boundary=x"),
    Extensions.empty, { polls := [.ok (.data (Text.utf8 "hello".toList))] }, .http11⟩

/-- A handler that answers 200. -/
def answerOk {T : Type} (_ : T) : Response Headers LimitExtensions (Body Headers) :=
  StatusCode.intoResponse .ok

/-- Behind the `Bytes` extractor the upload is refused. -/
theorem fiveBytes_refused_by_bytes :
    Refuses ((RequestBodyLimitLayer.mk 4).call
      (Consumer.endpoint (.bytes answerOk)).serve fiveBytes) :=
  ((RequestBodyLimitLayer.mk 4).call_refuses_iff (.endpoint (.bytes answerOk)) fiveBytes
    (by decide)).2
    ⟨LimitedBody.passes_eq_false (Nat.zero_le _) (by decide) (by decide),
      show OverLimitReported 4 _ fiveBytes.body by decide⟩

/-- The upload is accepted when its body is transformed first, and neither the decompression layer
nor the multipart extractor answers it with a 413. -/
theorem fiveBytes_not_refused :
    let layer := RequestBodyLimitLayer.mk 4
    declaredLength 64 fiveBytes.headers = none ∧
      layer.limit.toNat < Body.received fiveBytes.body.polls ∧
      ¬ Refuses (layer.call
        (Consumer.mapRequestBody ⟨id⟩ (.endpoint (.bytes answerOk))).serve fiveBytes) ∧
      ¬ Refuses (layer.call
        (Consumer.decompression ⟨⟩ (.endpoint (.bytes answerOk))).serve fiveBytes) ∧
      ¬ Refuses (layer.call (Consumer.endpoint (.multipart answerOk)).serve fiveBytes) := by
  decide

end Five
