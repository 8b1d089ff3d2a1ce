import Arvik.Core.ResponseBuilder
import Arvik.Foundation.JsonWriter

/-!
# Responses with a content type

The calls that end a `ResponseBuilder` set the content type of their body themselves: `text`,
`text_static`, `html` and `json`. A value is serialized through its own `Serialize` implementation,
which asks for a document to be written or fails with a text of its own; on a failure `json` and the
`Json` response of the core answer a constant 500.

Like every call of the builder these append their header. A content type that was set before stays
in front, and `ContentTypes` says what then leaves. The two constant bodies are texts of the source
and differ; both are written by hand, and `Refusals` shows that each is a document.
-/

/-- Values that can be serialized: the document that is written, or the text of the error. -/
class Serialize (T : Type) where
  serialize : T → Except Str JsonText.Value

/-- The JSON of a value, in UTF-8. -/
def toWriter {T : Type} [Serialize T] (data : T) : Except Str Bytes :=
  (Serialize.serialize data).map fun value ↦ Text.utf8 (JsonText.write value)

/-- The body of the 500 that `json` answers to a value that does not serialize. -/
def serializationErrorBody : Str :=
  "\x7b\"error\":\"Internal Server Error\",\"code\":500\x7d".toList

variable {H E B T : Type} [Multimap H HeaderName HeaderValue] [Extensions E] [FromBytes B]

namespace ResponseBuilder

/-- Build a JSON response. -/
def json [Serialize T] (self : ResponseBuilder H E) (data : T) : Response H E B :=
  match toWriter data with
  | .error _ =>
    -- a builder of its own: what was set before is given up
    ((new.status .internalServerError).header HeaderName.contentType
      HeaderValue.applicationJson).body
      (FromBytes.fromBytes (Text.utf8 serializationErrorBody))
  | .ok bytes =>
    (self.header HeaderName.contentType HeaderValue.applicationJson).body
      (FromBytes.fromBytes bytes)

theorem all_textHtmlUtf8 :
    (Text.utf8 "text/html; charset=utf-8".toList).all isHeaderValueByte := by
  decide

/-- Build an HTML response. -/
def html (self : ResponseBuilder H E) (s : Str) : Response H E B :=
  (self.header HeaderName.contentType
    (HeaderValue.fromStatic "text/html; charset=utf-8" all_textHtmlUtf8)).body
    (FromBytes.fromBytes (Text.utf8 s))

/-- Build a plain text response from constant data. -/
def textStatic (self : ResponseBuilder H E) (s : Str) : Response H E B :=
  (self.header HeaderName.contentType HeaderValue.textPlainUtf8).body
    (FromBytes.fromBytes (Text.utf8 s))

end ResponseBuilder

/-- The body the core answers to a value that does not serialize. -/
def Core.Json.errorBody : Str :=
  "\x7b\"error\":\"Serialization failed\",\"code\":500\x7d".toList

/-- The response a `Json` value of the core is turned into. -/
def Core.Json.intoResponse [Serialize T] (self : T) : Response H E B :=
  match toWriter self with
  | .ok bytes =>
    (ResponseBuilder.new.header HeaderName.contentType HeaderValue.applicationJson).body
      (FromBytes.fromBytes bytes)
  | .error _ =>
    ((ResponseBuilder.new.status .internalServerError).header HeaderName.contentType
      HeaderValue.applicationJson).body
      (FromBytes.fromBytes (Text.utf8 errorBody))
