import Arvik.Core.Extract
import Arvik.Extract.Validation

/-!
# The JSON and form extractors

Both check the content type, read the body under the limit of the buffering extractors, and hand the
bytes to a deserializer; they differ in what they accept and in their rejections
(`bufferedFromRequest`). Their validated variants check the value once more.

The one function is the order of the three steps. A request with a wrong content type is rejected
without a look at its body, and a body over the limit before it is deserialized, so what a rejection
says about a request does not depend on the later steps (`bufferedFromRequest_of_error`). Each
extractor is this function at its own predicate and rejections, under the source's name, with the
texts and statuses of the source.

Deserializers, validators and the media type parser come from libraries; they are parameters.
-/

/-- A parsed media type, its parts in lower case. -/
structure Mime where
  type : Str
  subtype : Str
  suffix : Option Str := none
  deriving DecidableEq

/-- The media type parser. -/
class MimeLib where
  parse : Str → Option Mime

variable {H E : Type} [Multimap H HeaderName HeaderValue] [Extensions E]

/-! ### Content types -/

/-- The content type of a message as text. -/
def contentTypeText (headers : H) : Option Str :=
  (Multimap.get headers HeaderName.contentType).bind HeaderValue.toStr

/-- The rest of a text after a prefix, whose case does not matter. -/
def stripAsciiCasePrefix (value lead : Str) : Option Str :=
  if lead.length ≤ value.length ∧ Text.eqIgnoreAsciiCase (value.take lead.length) lead then
    some (value.drop lead.length)
  else
    none

/-- The content type is JSON. -/
def jsonContentType [MimeLib] (headers : H) : Bool :=
  match contentTypeText headers with
  | none => false
  | some contentType =>
    Text.eqIgnoreAsciiCase contentType "application/json".toList ||
      (stripAsciiCasePrefix contentType "application/json".toList).any (fun rest ↦
        rest.isEmpty || rest.head? = some ';' || (Text.trimStart rest).head? = some ';') ||
      -- suffixed subtypes such as `application/vnd.api+json`
      (MimeLib.parse contentType).any fun mime ↦
        mime.type = "application".toList &&
          (mime.subtype = "json".toList || mime.suffix = some "json".toList)

/-- The content type is a URL-encoded form. -/
def formContentType [MimeLib] (headers : H) : Bool :=
  match contentTypeText headers with
  | none => false
  | some contentType =>
    Text.eqIgnoreAsciiCase contentType "application/x-www-form-urlencoded".toList ||
      (MimeLib.parse contentType).any fun mime ↦
        mime.type = "application".toList && mime.subtype = "x-www-form-urlencoded".toList

/-! ### Rejections -/

/-- The rejection of a JSON body. -/
inductive JsonRejection
  | bodyReadFailed (msg : Str)
  | missingJsonContentType
  | deserializationFailed (msg : Str)
  | payloadTooLarge
  deriving DecidableEq

namespace JsonRejection

def toText : JsonRejection → Str
  | bodyReadFailed msg => "Failed to read request body: ".toList ++ msg
  | missingJsonContentType => "Expected Content-Type: application/json".toList
  | deserializationFailed msg => "Invalid JSON: ".toList ++ msg
  | payloadTooLarge => "Request payload exceeds the maximum allowed size".toList

def status : JsonRejection → StatusCode
  | missingJsonContentType => .unsupportedMediaType
  | payloadTooLarge => .payloadTooLarge
  | _ => .badRequest

def intoResponse (self : JsonRejection) : Response H E (Body H) :=
  rejectionResponse self.status self.toText

end JsonRejection

/-- The rejection of a form body. -/
inductive FormRejection
  | bodyReadFailed (msg : Str)
  | invalidContentType
  | deserializationFailed (msg : Str)
  | payloadTooLarge
  deriving DecidableEq

namespace FormRejection

def toText : FormRejection → Str
  | bodyReadFailed msg => "Failed to read request body: ".toList ++ msg
  | invalidContentType => "Expected Content-Type: application/x-www-form-urlencoded".toList
  | deserializationFailed msg => "Invalid form data: ".toList ++ msg
  | payloadTooLarge => "Request payload exceeds the maximum allowed size".toList

def status : FormRejection → StatusCode
  | invalidContentType => .unsupportedMediaType
  | payloadTooLarge => .payloadTooLarge
  | _ => .badRequest

def intoResponse (self : FormRejection) : Response H E (Body H) :=
  rejectionResponse self.status self.toText

end FormRejection

/-- The rejection of a query. -/
inductive QueryRejection
  | missingQueryString
  | deserializationFailed (msg : Str)
  deriving DecidableEq

namespace QueryRejection

def toText : QueryRejection → Str
  | missingQueryString => "Missing query string".toList
  | deserializationFailed msg => "Invalid query string: ".toList ++ msg

def intoResponse (self : QueryRejection) : Response H E (Body H) :=
  rejectionResponse .badRequest self.toText

end QueryRejection

/-- The rejection of a validated value. -/
inductive ValidationRejection
  | json (rejection : JsonRejection)
  | form (rejection : FormRejection)
  | query (rejection : QueryRejection)
  | validation (problem : ValidationProblem)

def ValidationRejection.intoResponse : ValidationRejection → Response H E (Body H)
  | json rejection => rejection.intoResponse
  | form rejection => rejection.intoResponse
  | query rejection => rejection.intoResponse
  | validation problem =>
    ((ResponseBuilder.new.status .unprocessableEntity).header HeaderName.contentType
      HeaderValue.applicationJson).json problem

/-! ### Extractors -/

section Extractors

variable {H T R : Type} [Multimap H HeaderName HeaderValue] [Extensions.Slot E DefaultBodyLimit]

/-- The extractor that accepts a content type, reads the body, and deserializes it. -/
def bufferedFromRequest (accepts : H → Bool) (notAccepted tooLarge : R)
    (readFailed deserializationFailed : Str → R) (deserialize : Bytes → Except Str T)
    (req : Request H E (Body H)) : Except R T :=
  if !accepts req.headers then .error notAccepted
  else match readBody req with
    | .ok bytes => (deserialize bytes).mapError deserializationFailed
    | .error e => .error (if e.isPayloadTooLarge then tooLarge else readFailed e.toText)

/-- The `Json` extractor. -/
def Json.fromRequest [MimeLib] (fromSlice : Bytes → Except Str T) :
    Request H E (Body H) → Except JsonRejection T :=
  bufferedFromRequest jsonContentType .missingJsonContentType .payloadTooLarge .bodyReadFailed
    .deserializationFailed fromSlice

/-- The `Form` extractor. -/
def Form.fromRequest [MimeLib] (fromBytes : Bytes → Except Str T) :
    Request H E (Body H) → Except FormRejection T :=
  bufferedFromRequest formContentType .invalidContentType .payloadTooLarge .bodyReadFailed
    .deserializationFailed fromBytes

/-- A value that passes its validation. -/
def validateValue (validate : T → Option ValidationErrors) (value : T) :
    Except ValidationRejection T :=
  match validate value with
  | none => .ok value
  | some errors => .error (.validation (.ofErrors errors))

/-- The `ValidatedJson` extractor. -/
def ValidatedJson.fromRequest [MimeLib] (fromSlice : Bytes → Except Str T)
    (validate : T → Option ValidationErrors) (req : Request H E (Body H)) :
    Except ValidationRejection T :=
  ((Json.fromRequest fromSlice req).mapError .json).bind (validateValue validate)

/-- The `ValidatedForm` extractor. -/
def ValidatedForm.fromRequest [MimeLib] (fromBytes : Bytes → Except Str T)
    (validate : T → Option ValidationErrors) (req : Request H E (Body H)) :
    Except ValidationRejection T :=
  ((Form.fromRequest fromBytes req).mapError .form).bind (validateValue validate)

omit [Multimap H HeaderName HeaderValue] in
/-- When the body cannot be read, the rejection is settled by the content type and the failure. -/
theorem bufferedFromRequest_of_error {accepts : H → Bool} {notAccepted tooLarge : R}
    {readFailed deserializationFailed : Str → R} {deserialize : Bytes → Except Str T}
    {req : Request H E (Body H)} {e : BodyLimitError} (h : readBody req = .error e) :
    bufferedFromRequest accepts notAccepted tooLarge readFailed deserializationFailed deserialize
      req = .error (if !accepts req.headers then notAccepted
        else if e.isPayloadTooLarge then tooLarge else readFailed e.toText) := by
  rw [bufferedFromRequest, h]
  split <;> rfl

end Extractors
