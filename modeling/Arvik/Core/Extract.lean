import Arvik.Core.Body

/-!
# Framework errors and the buffering extractors of the core

An extractor turns a request into a value or into a rejection, and a rejection is answered with a
response of its own. `Bytes` and `String` reject with the framework's `Error`, which shows the
client a JSON object with the reason phrase of its status.

The reason phrases and the JSON printer come from libraries; they are parameters here, and nothing
is assumed about either. What the later modules use of an error is its status, which is why the
statuses of the two kinds of rejections are simplification lemmas.

`handleExtracted` is the shape of every handler: extract, and answer with the rejection or with what
the handler makes of the value. It is stated in a monad, so that the extractors that read a request
in memory and the layers that act on a connection share it.
-/

/-- What error responses take from the HTTP and JSON libraries. -/
class ErrorLib where
  /-- The standard reason phrase of a status. -/
  canonicalReason : StatusCode → Option Str
  /-- The JSON object with the keys `error` and `code`. -/
  jsonError : Str → ℕ → Str

/-- The framework error; the error it wraps is never shown. -/
structure Error where
  status : StatusCode := .internalServerError
  publicMessage : Option Str := none

variable {H E : Type} [Multimap H HeaderName HeaderValue] [Extensions E]

/-- The response to an error. -/
def Error.intoResponse [ErrorLib] (self : Error) : Response H E (Body H) :=
  let message := self.publicMessage.getD
    ((ErrorLib.canonicalReason self.status).getD "Internal Server Error".toList)
  ((ResponseBuilder.new.status self.status).header HeaderName.contentType
    HeaderValue.applicationJson).body
    (Body.fromBytes (Text.utf8 (ErrorLib.jsonError message self.status.code)))

/-- The error of a limited reading. -/
def bodyLimitRejection (e : BodyLimitError) : Error :=
  if e.isPayloadTooLarge then { status := .payloadTooLarge } else {}

/-- The response of a rejection that only has a status and a text. -/
def rejectionResponse (status : StatusCode) (text : Str) : Response H E (Body H) :=
  ((ResponseBuilder.new.status status).header HeaderName.contentType
    HeaderValue.textPlainUtf8).body (Body.fromBytes (Text.utf8 text))

@[simp]
theorem Error.intoResponse_status [ErrorLib] (self : Error) :
    (self.intoResponse : Response H E (Body H)).status = self.status :=
  rfl

@[simp]
theorem rejectionResponse_status (status : StatusCode) (text : Str) :
    (rejectionResponse status text : Response H E (Body H)).status = status :=
  rfl

/-! ### Extraction -/

section Extract

variable {H : Type} [Extensions.Slot E DefaultBodyLimit]

/-- The body of a request, under the limit of the buffering extractors. -/
def readBody (req : Request H E (Body H)) : Except BodyLimitError Bytes :=
  req.body.toBytesLimited (resolveLimit req.extensions)

/-- The `Bytes` extractor. -/
def Bytes.fromRequest (req : Request H E (Body H)) : Except Error Bytes :=
  (readBody req).mapError bodyLimitRejection

/-- A text made of the bytes of a body. -/
def Str.ofBody : Except Error Bytes → Except Error Str
  | .error e => .error e
  | .ok bytes =>
    match Text.fromUtf8 bytes with
    | some s => .ok s
    | none => .error { status := .badRequest }

/-- The `String` extractor. -/
def Str.fromRequest (req : Request H E (Body H)) : Except Error Str :=
  Str.ofBody ((readBody req).mapError bodyLimitRejection)

end Extract

/-- Answer a request with a handler taking an extracted value; a rejection is answered without
calling it. -/
def handleExtracted {m : Type → Type} [Monad m] {R T : Type}
    (intoResponse : R → Response H E (Body H)) (handler : T → m (Response H E (Body H))) :
    Except R T → m (Response H E (Body H))
  | .error rejection => pure (intoResponse rejection)
  | .ok value => handler value
