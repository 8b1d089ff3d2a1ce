import Arvik.Extract.Buffering
import Arvik.Middleware.BodyLimit

/-!
# The multipart extractor

The extractor checks the declared length and the content type, takes the boundary from the latter,
and hands the body to a streaming parser as a stream of byte chunks. The parser is a library: the
class `MulterLib` gives what a reader meets who takes every field of a form and the whole content of
each. Its only law is that a stream which failed is not read on.

On the way to the parser an error of the body becomes an I/O error that keeps nothing but its text
(`bodyStream`). The parser reports it as a failed stream, and the response to that is a 400, also
when the failure was a body over a limit.

The statuses are those of the source, each for its kind of error, and `fields_payloadTooLarge_iff`
says which way of reading a form ends with a 413: the parser's own limits, and no limit of the body.
What the parser makes of a stream is never looked into. Two streams that agree up to their failure
are read alike, so a body whose cap is crossed may be replaced by the chunks in front of the failure
(`cappedChunks`), and what the cap lets through is known.
-/

/-! ### The parser -/

/-- What the headers of a field say. -/
structure FieldMetadata where
  name : Option Str := none
  fileName : Option Str := none
  contentType : Option Mime := none
  deriving DecidableEq

/-- The failures of the parser. -/
inductive MulterError
  | fieldSizeExceeded (limit : ℕ) (fieldName : Option Str)
  | streamSizeExceeded (limit : ℕ)
  /-- The stream under the parser failed. -/
  | streamReadFailed (text : Str)
  | other (text : Str)
  deriving DecidableEq

/-- What a reader meets who takes every field of a form. -/
inductive FormRun
  /-- The form is complete. -/
  | closed
  /-- There is no next field: the parser failed. -/
  | failed (e : MulterError)
  /-- A field, and the outcome of reading its content. -/
  | field (metadata : FieldMetadata) (content : Except MulterError Bytes) (rest : FormRun)

/-- The streaming parser. -/
class MulterLib where
  /-- Read a form: the boundary, the size limits of the stream and of a field, the chunks. -/
  read : Str → ℕ → ℕ → List (Except Str Bytes) → FormRun
  errorText : MulterError → Str
  /-- A stream that failed is not read on. -/
  read_error : ∀ boundary wholeStream perField chunks e rest,
    read boundary wholeStream perField (chunks ++ .error e :: rest) =
      read boundary wholeStream perField (chunks ++ [.error e])

/-! ### Configuration, errors and rejections -/

/-- Limits on a form. -/
structure MultipartConstraints where
  maxFields : ℕ := 100
  maxFieldSize : ℕ := 5 * 1024 * 1024
  maxTotalSize : ℕ := 50 * 1024 * 1024
  deriving DecidableEq

/-- The configuration of the extractor. -/
structure MultipartConfig where
  constraints : MultipartConstraints := {}
  deriving DecidableEq

/-- The failure of an operation on a form. -/
inductive MultipartError
  | parser (e : MulterError)
  | tooManyFields (limit : ℕ)
  deriving DecidableEq

/-- The parser stopped at one of its size limits. -/
def MulterError.isSizeExceeded : MulterError → Bool
  | fieldSizeExceeded _ _ | streamSizeExceeded _ => true
  | _ => false

namespace MultipartError

/-- The status that represents a failure. -/
def statusCode : MultipartError → StatusCode
  | parser e => if e.isSizeExceeded then .payloadTooLarge else .badRequest
  | tooManyFields _ => .payloadTooLarge

def toText [MulterLib] : MultipartError → Str
  | parser e => "Multipart error: ".toList ++ MulterLib.errorText e
  | tooManyFields limit =>
    "Multipart field count exceeded limit: ".toList ++ Nat.toDigits 10 limit

end MultipartError

/-- The rejection of a request that is no form. -/
inductive MultipartRejection
  | invalidContentType
  | missingBoundary
  | payloadTooLarge
  deriving DecidableEq

namespace MultipartRejection

def toText : MultipartRejection → Str
  | invalidContentType => "Expected Content-Type: multipart/form-data".toList
  | missingBoundary => "Missing multipart boundary in Content-Type".toList
  | payloadTooLarge => "Request payload exceeds the maximum allowed size".toList

def status : MultipartRejection → StatusCode
  | invalidContentType => .unsupportedMediaType
  | payloadTooLarge => .payloadTooLarge
  | missingBoundary => .badRequest

theorem status_eq_payloadTooLarge_iff (self : MultipartRejection) :
    self.status = .payloadTooLarge ↔ self = .payloadTooLarge := by
  cases self <;> decide

end MultipartRejection

variable {H E : Type} [Multimap H HeaderName HeaderValue] [Extensions E]

def MultipartError.intoResponse [MulterLib] (self : MultipartError) : Response H E (Body H) :=
  rejectionResponse self.statusCode self.toText

def MultipartRejection.intoResponse (self : MultipartRejection) : Response H E (Body H) :=
  rejectionResponse self.status self.toText

/-! ### The boundary -/

/-- The value of a parameter, its quotes taken off. -/
def unquote (value : Str) : Str :=
  ((Text.stripPrefix ['"'] value).bind (Text.stripSuffix ['"'])).getD value

/-- The boundary a parameter gives. -/
def boundaryParam (param : Str) : Option Str :=
  (Text.splitOnce '=' param).bind fun (name, value) ↦
    if Text.eqIgnoreAsciiCase (Text.trim name) "boundary".toList ∧ unquote (Text.trim value) ≠ []
    then some (unquote (Text.trim value)) else none

/-- The boundary of a content type: that of the first parameter that gives one. -/
def extractBoundary (contentType : Str) : Except MultipartRejection Str :=
  let segments := contentType.splitOn ';'
  if !Text.eqIgnoreAsciiCase (Text.trim (segments.headD [])) "multipart/form-data".toList then
    .error .invalidContentType
  else
    match segments.tail.findSome? boundaryParam with
    | some boundary => .ok boundary
    | none => .error .missingBoundary

/-- The checks made before the body is touched. -/
def validateMultipartRequest {B : Type} (req : Request H E B) (config : MultipartConfig) :
    Except MultipartRejection Str :=
  if (declaredLength 64 req.headers).any (config.constraints.maxTotalSize < ·) then
    .error .payloadTooLarge
  else match contentTypeText req.headers with
    | none => .error .invalidContentType
    | some contentType => extractBoundary contentType

/-! ### The extractor -/

/-- The body as the parser sees it: trailers are skipped, of an error only the text is left. -/
def bodyStream {H : Type} (polls : Polls H) : List (Except Str Bytes) :=
  polls.filterMap fun
    | .ok (.data bytes) => some (.ok bytes)
    | .ok (.trailers _) => none
    | .error e => some (.error e.toText)

theorem bodyStream_data {H : Type} (bytes : Bytes) (rest : Polls H) :
    bodyStream (.ok (.data bytes) :: rest) = .ok bytes :: bodyStream rest :=
  rfl

/-- A form being read. -/
structure Multipart where
  inner : FormRun
  config : MultipartConfig
  fieldsRead : ℕ := 0

namespace Multipart

/-- The extractor under a given configuration. -/
def fromRequestWithConfig [MulterLib] (req : Request H E (Body H)) (config : MultipartConfig) :
    Except MultipartRejection Multipart :=
  (validateMultipartRequest req config).map fun boundary ↦
    { inner := MulterLib.read boundary config.constraints.maxTotalSize
        config.constraints.maxFieldSize (bodyStream req.body.polls)
      config }

/-- The configuration in force for a request. -/
def configOf [Extensions.Slot E MultipartConfig] [Extensions.Slot E MultipartConstraints]
    (extensions : E) : MultipartConfig :=
  match (Extensions.Slot.get extensions : Option MultipartConfig) with
  | some config => config
  | none =>
    match (Extensions.Slot.get extensions : Option MultipartConstraints) with
    | some constraints => { constraints }
    | none => {}

/-- The `Multipart` extractor. -/
def fromRequest [MulterLib] [Extensions.Slot E MultipartConfig]
    [Extensions.Slot E MultipartConstraints] (req : Request H E (Body H)) :
    Except MultipartRejection Multipart :=
  fromRequestWithConfig req (configOf req.extensions)

/-- The next field of a form, with the outcome of reading its content. -/
def nextField (self : Multipart) : Except MultipartError
    (Option ((FieldMetadata × Except MultipartError Bytes) × Multipart)) :=
  match self.inner with
  | .closed => .ok none
  | .failed e => .error (.parser e)
  | .field metadata content rest =>
    if self.config.constraints.maxFields ≤ self.fieldsRead then
      .error (.tooManyFields self.config.constraints.maxFields)
    else
      .ok (some ((metadata, content.mapError .parser),
        { self with inner := rest, fieldsRead := self.fieldsRead + 1 }))

/-- The loop of a handler that reads the whole form and passes every failure on. -/
def readForm (constraints : MultipartConstraints) (fieldsRead : ℕ) :
    FormRun → Except MultipartError (List (FieldMetadata × Bytes))
  | .closed => .ok []
  | .failed e => .error (.parser e)
  | .field metadata content rest =>
    if constraints.maxFields ≤ fieldsRead then .error (.tooManyFields constraints.maxFields)
    else match content with
      | .error e => .error (.parser e)
      | .ok bytes => (readForm constraints (fieldsRead + 1) rest).map ((metadata, bytes) :: ·)

/-- All fields of a form. -/
def fields (self : Multipart) : Except MultipartError (List (FieldMetadata × Bytes)) :=
  readForm self.config.constraints self.fieldsRead self.inner

/-- The loop takes one field after the other. -/
theorem fields_eq (self : Multipart) :
    self.fields = self.nextField.bind fun
      | none => .ok []
      | some ((metadata, content), self') =>
        content.bind fun bytes ↦ self'.fields.map ((metadata, bytes) :: ·) := by
  obtain ⟨inner, config, fieldsRead⟩ := self
  cases inner with
  | closed => rfl
  | failed e => rfl
  | field metadata content rest =>
    simp only [fields, nextField, readForm]
    split
    · rfl
    · cases content <;> rfl

end Multipart

/-! ### Limits met while reading -/

/-- Reading the form stops at a limit of the form: too many fields, a field or the whole stream
too large. -/
def FormRun.ExceedsLimit (maxFields : ℕ) : ℕ → FormRun → Prop
  | _, closed => False
  | _, failed e => e.isSizeExceeded
  | fieldsRead, field _ (.error e) _ => maxFields ≤ fieldsRead ∨ e.isSizeExceeded
  | fieldsRead, field _ (.ok _) rest =>
    maxFields ≤ fieldsRead ∨ ExceedsLimit maxFields (fieldsRead + 1) rest

/-- A failure of the parser is a 413 if the parser stopped at a size limit. -/
theorem MultipartError.statusCode_parser_iff (e : MulterError) :
    (parser e).statusCode = .payloadTooLarge ↔ e.isSizeExceeded := by
  rw [statusCode]
  split
  · next h => exact iff_of_true rfl h
  · next h => exact iff_of_false (by decide) h

/-- The handler's loop fails with a 413 exactly at a limit of the form. -/
theorem Multipart.fields_payloadTooLarge_iff (self : Multipart) :
    (∃ e, self.fields = .error e ∧ e.statusCode = .payloadTooLarge) ↔
      self.inner.ExceedsLimit self.config.constraints.maxFields self.fieldsRead := by
  obtain ⟨inner, config, fieldsRead⟩ := self
  induction inner generalizing fieldsRead with
  | closed => exact iff_of_false (fun ⟨_, h, _⟩ ↦ nomatch h) id
  | failed e =>
    rw [FormRun.ExceedsLimit, ← MultipartError.statusCode_parser_iff]
    exact ⟨fun ⟨_, h, hstatus⟩ ↦ Except.error.inj h ▸ hstatus, fun hstatus ↦ ⟨_, rfl, hstatus⟩⟩
  | field metadata content rest ih =>
    rw [fields_eq, nextField]
    rcases Nat.lt_or_ge fieldsRead config.constraints.maxFields with hfew | hmany
    · simp only [if_neg (Nat.not_le.2 hfew), Except.bind]
      cases content with
      | error e =>
        rw [FormRun.ExceedsLimit, or_iff_right (Nat.not_le.2 hfew),
          ← MultipartError.statusCode_parser_iff]
        exact ⟨fun ⟨_, h, hstatus⟩ ↦ Except.error.inj h ▸ hstatus, fun hstatus ↦ ⟨_, rfl, hstatus⟩⟩
      | ok bytes =>
        -- the field is taken, and the rest of the form decides
        rw [FormRun.ExceedsLimit, or_iff_right (Nat.not_le.2 hfew), ← ih (fieldsRead + 1)]
        simp only [Except.mapError]
        cases (Multipart.mk rest config (fieldsRead + 1)).fields <;> simp [Except.map]
    · have hexceeds : (FormRun.field metadata content rest).ExceedsLimit
          config.constraints.maxFields fieldsRead := by
        cases content <;> exact .inl hmany
      simp only [if_pos hmany]
      exact iff_of_true ⟨_, rfl, rfl⟩ hexceeds

/-! ### The stream of a capped body -/

/-- The chunks the parser is given of a stream under a cap, up to the first failure: that of the
stream, or that of the cap. -/
def cappedChunks {H : Type} (limit read : UInt64) : Polls H → List (Except Str Bytes)
  | [] => []
  | .error e :: _ => [.error e.toText]
  | .ok (.trailers _) :: rest => cappedChunks limit read rest
  | .ok (.data bytes) :: rest =>
    if limit < read + UInt64.ofNat bytes.length then [.error BoxError.bodyTooLarge.toText]
    else .ok bytes :: cappedChunks limit (read + UInt64.ofNat bytes.length) rest

/-- The chunks of a capped stream are the capped chunks, and more only behind a failure. -/
theorem bodyStream_polls {H : Type} (limit read : UInt64) (stream : Polls H) :
    bodyStream (LimitedBody.polls limit read stream) = cappedChunks limit read stream ∨
      ∃ chunks e rest, cappedChunks limit read stream = chunks ++ [.error e] ∧
        bodyStream (LimitedBody.polls limit read stream) = chunks ++ .error e :: rest := by
  induction stream generalizing read with
  | nil => exact .inl rfl
  | cons answer rest ih =>
    match answer with
    | .error e => exact .inr ⟨[], e.toText, _, rfl, rfl⟩
    | .ok (.trailers headers) => exact ih read
    | .ok (.data bytes) =>
      rw [cappedChunks, LimitedBody.polls, LimitedBody.pollFrame]
      split
      · exact .inr ⟨[], _, _, rfl, rfl⟩
      · rcases ih (read + UInt64.ofNat bytes.length) with hall | ⟨chunks, e, tail, hchunks, hstream⟩
        · rw [bodyStream_data, hall]
          exact .inl rfl
        · rw [bodyStream_data, hstream, hchunks]
          exact .inr ⟨.ok bytes :: chunks, e, tail, rfl, rfl⟩

/-- What reading a form under the cap amounts to: the parser does not see what comes behind the
first failure. -/
theorem MulterLib.read_polls [MulterLib] {H : Type} (limit : UInt64) (stream : Polls H)
    (boundary : Str) (wholeStream perField : ℕ) :
    MulterLib.read boundary wholeStream perField (bodyStream (LimitedBody.polls limit 0 stream)) =
      MulterLib.read boundary wholeStream perField (cappedChunks limit 0 stream) := by
  rcases bodyStream_polls limit 0 stream with hall | ⟨chunks, e, rest, hchunks, hstream⟩
  · rw [hall]
  · rw [hstream, hchunks, MulterLib.read_error]
