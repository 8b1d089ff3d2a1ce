import Arvik.Core.Body
import Arvik.Core.Json
import Arvik.Foundation.JsonSplice

/-!
# JSON responses

The `Json` response of the extractors is written apart from that of the core. When a value does not
serialize, it puts the text of the error into the body as it is, between the quotes of a JSON
string. The error may come from the value's own `Serialize` implementation, so its text is any text:
`alwaysJson_iff` says for which texts the body is still JSON.

What a text between two quotes of an object does to the object is a question about the grammar of
JSON and nothing else, and is answered where it belongs (`JsonText.isObjectText_spliced_iff`). Left
for this module is to see that the bodies have that shape (`errorBody_eq`), that a body that is
written is the body that is sent, and that the core, which answers with a fixed text, has nothing to
splice.

The predicate is about all that a client sees: that the body is JSON, that it is an object where an
error is told, and that the content type says so.
-/

variable {H E T : Type} [Multimap H HeaderName HeaderValue] [Extensions E]

/-- The body of a serialization error. -/
def Json.errorBody (err : Str) : Str :=
  "\x7b\"error\":\"JSON serialization failed: ".toList ++ err ++ "\"\x7d".toList

/-- The response a `Json` value is turned into. -/
def Json.intoResponse {B : Type} [FromBytes B] [Serialize T] (self : T) : Response H E B :=
  match toWriter self with
  | .ok bytes =>
    (ResponseBuilder.new.header HeaderName.contentType HeaderValue.applicationJson).body
      (FromBytes.fromBytes bytes)
  | .error err =>
    ((ResponseBuilder.new.status .internalServerError).header HeaderName.contentType
      HeaderValue.applicationJson).body (FromBytes.fromBytes (Text.utf8 (errorBody err)))

namespace Json

open JsonText

/-- The body of a response is a text in some format. -/
def BodyIs (format : Bytes → Prop) (response : Response H E (Body H)) : Prop :=
  ∃ bytes, response.body.toBytes = .ok bytes ∧ format bytes

/-- A value is answered with JSON, whatever becomes of its serialization, and by the core alike:
what the client is told about an error is in a document it can read. -/
structure AlwaysJson (H E : Type) [Multimap H HeaderName HeaderValue] [Extensions E] [Serialize T]
    (data : T) : Prop where
  contentType : Multimap.getAll (intoResponse data : Response H E (Body H)).headers
    HeaderName.contentType = [HeaderValue.applicationJson]
  json : BodyIs IsJson (intoResponse data : Response H E (Body H))
  success : ∀ value, Serialize.serialize data = .ok value →
    (intoResponse data : Response H E (Body H)).status = .ok ∧
      BodyIs (· = Text.utf8 (write value)) (intoResponse data : Response H E (Body H))
  failure : ∀ err, Serialize.serialize data = .error err →
    (intoResponse data : Response H E (Body H)).status = .internalServerError ∧
      BodyIs IsJsonObject (intoResponse data : Response H E (Body H))
  coreStatus : (Core.Json.intoResponse data : Response H E (Body H)).status =
    (intoResponse data : Response H E (Body H)).status
  coreJson : BodyIs IsJson (Core.Json.intoResponse data : Response H E (Body H))

/-! ### The two outcomes -/

variable [Serialize T] {data : T}

theorem intoResponse_of_ok {value : Value} (h : Serialize.serialize data = .ok value) :
    (intoResponse data : Response H E (Body H)) =
      (ResponseBuilder.ofPairs .ok [(HeaderName.contentType, HeaderValue.applicationJson)]).body
        (Body.fromBytes (Text.utf8 (write value))) := by
  rw [intoResponse, toWriter, h]
  rfl

theorem intoResponse_of_error {err : Str} (h : Serialize.serialize data = .error err) :
    (intoResponse data : Response H E (Body H)) =
      (ResponseBuilder.ofPairs .internalServerError
        [(HeaderName.contentType, HeaderValue.applicationJson)]).body
        (Body.fromBytes (Text.utf8 (errorBody err))) := by
  rw [intoResponse, toWriter, h]
  rfl

theorem core_intoResponse_of_ok {value : Value} (h : Serialize.serialize data = .ok value) :
    (Core.Json.intoResponse data : Response H E (Body H)) = intoResponse data := by
  rw [intoResponse_of_ok h, Core.Json.intoResponse, toWriter, h]
  rfl

theorem core_intoResponse_of_error {err : Str} (h : Serialize.serialize data = .error err) :
    (Core.Json.intoResponse data : Response H E (Body H)) =
      (ResponseBuilder.ofPairs .internalServerError
        [(HeaderName.contentType, HeaderValue.applicationJson)]).body
        (Body.fromBytes (Text.utf8 Core.Json.errorBody)) := by
  rw [Core.Json.intoResponse, toWriter, h]
  rfl

/-- The body of a response built from bytes. -/
theorem bodyIs_body_iff {format : Bytes → Prop} {code : StatusCode}
    {items : List (HeaderName × HeaderValue)} {bytes : Bytes} :
    BodyIs format ((ResponseBuilder.ofPairs code items : ResponseBuilder H E).body
      (Body.fromBytes bytes : Body H)) ↔ format bytes := by
  show (∃ b, (Body.fromBytes bytes : Body H).toBytes = .ok b ∧ format b) ↔ format bytes
  rw [Body.toBytes_fromBytes]
  refine ⟨?_, fun h ↦ ⟨bytes, rfl, h⟩⟩
  rintro ⟨b, hb, h⟩
  rwa [Except.ok.inj hb]

/-- The body of an error is an object with the text of the error spliced in. -/
theorem errorBody_eq (err : Str) :
    errorBody err = spliced "error".toList "JSON serialization failed: ".toList err := by
  rw [spliced_eq]
  rfl

/-- What the core answers to an error is JSON. -/
theorem isJson_core_errorBody : IsJson (Text.utf8 Core.Json.errorBody) := by
  have hnumber : IsNumber ([] ++ "500".toList ++ [] ++ []) :=
    .mk (.inl rfl) ⟨by decide, List.all_eq_true.1 (by decide)⟩ (fun h ↦ absurd h (by decide))
      (.inl rfl) (.inl rfl)
  exact isJson_utf8_iff.2 (isText_write (.object [("error".toList,
    .string "Serialization failed".toList), ("code".toList, .number ⟨_, hnumber⟩)]))

/-! ### When the answer is JSON -/

theorem plain_errorStart : ∀ c ∈ "JSON serialization failed: ".toList, isPlain c :=
  List.all_eq_true.1 (by decide)

theorem isChars_error : IsChars "error".toList := by
  have hplain : ∀ c ∈ "error".toList, isPlain c := List.all_eq_true.1 (by decide)
  rw [← List.append_nil "error".toList]
  exact (isChars_append_iff hplain).2 .nil

theorem isJson_errorBody_iff (err : Str) :
    IsJson (Text.utf8 (errorBody err)) ↔ OpenString err := by
  rw [isJson_utf8_iff, errorBody_eq, isText_spliced_iff isChars_error plain_errorStart]

theorem isJsonObject_errorBody_iff (err : Str) :
    IsJsonObject (Text.utf8 (errorBody err)) ↔ OpenString err := by
  rw [isJsonObject_utf8_iff, errorBody_eq, isObjectText_spliced_iff isChars_error plain_errorStart]

/-- A serialized value is answered with JSON. -/
theorem alwaysJson_of_ok {value : Value} (h : Serialize.serialize data = .ok value) :
    AlwaysJson H E data := by
  have hjson : IsJson (Text.utf8 (write value)) := isJson_utf8_iff.2 (isText_write value)
  have hvalue : ∀ value', Serialize.serialize data = .ok value' → value' = value := fun value' h' ↦
    (Except.ok.inj (h.symm.trans h')).symm
  refine ⟨?_, ?_, fun value' h' ↦ ?_, fun err h' ↦ ?_, ?_, ?_⟩
  · rw [intoResponse_of_ok h, ResponseBuilder.getAll_body_ofPairs, Multimap.valuesFor_cons]
    rfl
  · rw [intoResponse_of_ok h, bodyIs_body_iff]
    exact hjson
  · rw [intoResponse_of_ok h, bodyIs_body_iff, hvalue value' h']
    exact ⟨rfl, rfl⟩
  · rw [h] at h'
    cases h'
  · rw [core_intoResponse_of_ok h]
  · rw [core_intoResponse_of_ok h, intoResponse_of_ok h, bodyIs_body_iff]
    exact hjson

/-- A value that does not serialize is answered with JSON if the text of its error leaves a string
open. -/
theorem alwaysJson_of_error_iff {err : Str} (h : Serialize.serialize data = .error err) :
    AlwaysJson H E data ↔ OpenString err := by
  constructor
  · intro halways
    have hjson := halways.json
    rwa [intoResponse_of_error h, bodyIs_body_iff, isJson_errorBody_iff] at hjson
  · intro hopen
    refine ⟨?_, ?_, fun value h' ↦ ?_, fun err' h' ↦ ?_, ?_, ?_⟩
    · rw [intoResponse_of_error h, ResponseBuilder.getAll_body_ofPairs, Multimap.valuesFor_cons]
      rfl
    · rw [intoResponse_of_error h, bodyIs_body_iff]
      exact (isJson_errorBody_iff err).2 hopen
    · rw [h] at h'
      cases h'
    · rw [intoResponse_of_error h, bodyIs_body_iff]
      exact ⟨rfl, (isJsonObject_errorBody_iff err).2 hopen⟩
    · rw [core_intoResponse_of_error h, intoResponse_of_error h]
      rfl
    · rw [core_intoResponse_of_error h, bodyIs_body_iff]
      exact isJson_core_errorBody

/-- **When the answer is JSON**: always, but for a value whose serialization fails with a text that
does not leave a string open. -/
theorem alwaysJson_iff (H E : Type) [Multimap H HeaderName HeaderValue] [Extensions E] (data : T) :
    AlwaysJson H E data ↔ ∀ err, Serialize.serialize data = .error err → OpenString err := by
  rcases h : Serialize.serialize data with err | value
  · rw [alwaysJson_of_error_iff h]
    exact ⟨fun hopen err' herr ↦ Except.error.inj herr ▸ hopen, fun hall ↦ hall err rfl⟩
  · exact iff_of_true (alwaysJson_of_ok h) fun err herr ↦ by cases herr

/-! ### An error with a quote -/

/-- A value that refuses to be serialized, with a text. -/
structure Refusing where
  text : Str

instance : Serialize Refusing := ⟨fun self ↦ .error self.text⟩

/-- A single quote does not leave a string open. -/
theorem not_openString_quote : ¬ OpenString ['"'] := by
  intro h
  generalize hs : ['"'] = s at h
  rcases h with ⟨hs'⟩ | @⟨s, w, t, -, -, -⟩
  · subst hs
    rcases hs' with - | ⟨hc, -⟩
    exact absurd hc (by decide)
  · have hlength := congrArg List.length hs
    simp only [List.length_cons, List.length_append, List.length_nil] at hlength
    omega

/-- The error `"` is answered with a body that is not JSON. -/
theorem not_alwaysJson_quote :
    ¬ AlwaysJson (AssocList HeaderName HeaderValue) (Option Unit) (⟨['"']⟩ : Refusing) := by
  intro h
  exact not_openString_quote ((alwaysJson_of_error_iff rfl).1 h)

end Json
