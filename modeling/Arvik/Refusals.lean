import Arvik.Core.Extract
import Arvik.Core.Json
import Arvik.Foundation.IpAddrParser
import Arvik.Foundation.JsonReading
import Arvik.Middleware.Auth
import Arvik.Middleware.BodyLimit
import Arvik.Middleware.CatchPanic
import Arvik.Middleware.ClientKey
import Arvik.Middleware.Csrf
import Arvik.Ws.Handshake

/-!
# Refusals

Ten places of the framework answer with a JSON record of an `error` and a `code`: the guards, the
limits, the upgrade, `Error`, and the calls of the core that answer to a value that does not
serialize. All but `Error`, which has a serializer write the document, put the text together by
hand.

They are one type, `Refusal`, by what each is made from. All of them are documents with a record in
them, `Refusal.members`: what is sent is what a serializer would write for the record, and for
nothing else, and its `code` is the status of the response (`Refusal.documented`). That the body is
the text of the record is a computation for each of them (`body_response`), where the numbers put in
have no leading zeros and the texts put in no character that a serializer escapes; that it is the
text of no other record is the injectivity of the serializer.

## What is not among them

Three more answers in JSON are not of this form. The 422 of a value that does not validate has no
`code`, and leaves with two content types. The `Json` response of the extractors puts the text of a
serialization error in as it is, quotes included. And the 503 that is written to a connection over
the limit never becomes a response: its bytes go to the socket.
-/

open JsonText

/-! ### Numbers -/

namespace JsonText.Number

theorem isNumber_toDigits (n : ℕ) : IsNumber (Nat.toDigits 10 n) := by
  have hdigits : IsDigits (Nat.toDigits 10 n) :=
    ⟨Nat.toDigits_ne_nil, fun _ hc ↦ Nat.isDigit_of_mem_toDigits (by decide) (by decide) hc⟩
  have hzero : (Nat.toDigits 10 n).head? = some '0' → Nat.toDigits 10 n = ['0'] := fun h ↦ by
    rcases Nat.eq_zero_or_pos n with rfl | hn
    · exact Nat.toDigits_zero 10
    · exact absurd h (IpAddr.head?_toDigits (by decide) hn)
  have hnumber := IsNumber.mk (.inl rfl) hdigits hzero (.inl rfl) (.inl rfl)
  rwa [List.nil_append, List.append_nil, List.append_nil] at hnumber

/-- A natural number. -/
def ofNat (n : ℕ) : Number := ⟨Nat.toDigits 10 n, isNumber_toDigits n⟩

end JsonText.Number

variable {H E : Type} [Multimap H HeaderName HeaderValue] [Extensions E]

/-- The serializer writes the document of an error, its keys in order. -/
class LawfulErrors [ErrorLib] : Prop where
  jsonError_eq : ∀ (message : Str) (code : ℕ), ErrorLib.jsonError message code =
    write (.object [("code".toList, .number (.ofNat code)), ("error".toList, .string message)])

/-! ### The refusals -/

/-- A refusal in JSON, by what it is made from. -/
inductive Refusal (H E : Type) : Type 1
  | unauthorized (layer : RequireAuthorizationLayer H E (Body H))
  | forbidden
  | panicked
  | tooLarge (limit : UInt64)
  | timedOut (duration : ℕ)
  | tooManyRequests (capacity retrySecs : ℕ)
  | notUpgraded (rejection : WebSocket.WebSocketUpgradeRejection)
  | error (e : Error)
  /-- `ResponseBuilder::json` with a value that does not serialize. -/
  | notBuilt {T : Type} [Serialize T] (builder : ResponseBuilder H E) (data : T) (err : Str)
      (h : Serialize.serialize data = .error err)
  /-- The `Json` response of the core, with a value that does not serialize. -/
  | notSerialized {T : Type} [Serialize T] (data : T) (err : Str)
      (h : Serialize.serialize data = .error err)

namespace Refusal

/-- The response of a refusal. -/
def response [ErrorLib] : Refusal H E → Response H E (Body H)
  | unauthorized layer => layer.unauthorized
  | forbidden => csrfForbidden
  | panicked => CatchPanicLayer.defaultPanicResponse
  | tooLarge limit => payloadTooLarge limit
  | timedOut duration => TimeoutLayer.timedOut duration
  | tooManyRequests capacity retrySecs => RateLimit.tooManyRequests capacity retrySecs
  | notUpgraded rejection => rejection.intoResponse
  | error e => e.intoResponse
  | notBuilt builder data _ _ => builder.json data
  | notSerialized data _ _ => Core.Json.intoResponse data

/-- The record of a refusal. -/
def members [ErrorLib] : Refusal H E → List (Str × Value)
  | unauthorized _ => [("error".toList, .string "Unauthorized".toList),
      ("code".toList, .number (.ofNat 401))]
  | forbidden => [("error".toList, .string "Forbidden".toList),
      ("code".toList, .number (.ofNat 403)),
      ("message".toList, .string "CSRF token validation failed".toList)]
  | panicked | notBuilt _ _ _ _ => [("error".toList, .string "Internal Server Error".toList),
      ("code".toList, .number (.ofNat 500))]
  | tooLarge limit => [("error".toList, .string "Payload Too Large".toList),
      ("code".toList, .number (.ofNat 413)), ("limit_bytes".toList, .number (.ofNat limit.toNat))]
  | timedOut duration => [("error".toList, .string "Request Timeout".toList),
      ("code".toList, .number (.ofNat 408)),
      ("message".toList, .string ("Request exceeded the ".toList ++
        Nat.toDigits 10 (duration / 1000000) ++ "ms time limit".toList))]
  | tooManyRequests _ retrySecs => [("error".toList, .string "Too Many Requests".toList),
      ("code".toList, .number (.ofNat 429)), ("retry_after".toList, .number (.ofNat retrySecs))]
  | notUpgraded rejection => [("error".toList, .string "WebSocket upgrade failed".toList),
      ("reason".toList, .string rejection.display),
      ("code".toList, .number (.ofNat rejection.status.code))]
  | error e => [("code".toList, .number (.ofNat e.status.code)),
      ("error".toList, .string (e.publicMessage.getD
        ((ErrorLib.canonicalReason e.status).getD "Internal Server Error".toList)))]
  | notSerialized _ _ _ => [("error".toList, .string "Serialization failed".toList),
      ("code".toList, .number (.ofNat 500))]

/-! ### What is sent -/

theorem isPlain_timeLimit (n : ℕ) : ∀ c ∈ "Request exceeded the ".toList ++ Nat.toDigits 10 n ++
    "ms time limit".toList, isPlain c := by
  have hdigit : ∀ d < 10, isPlain (Nat.digitChar d) := by decide
  simp only [List.mem_append, or_imp, forall_and]
  refine ⟨⟨List.all_eq_true.1 (by decide), fun c hc ↦ ?_⟩, List.all_eq_true.1 (by decide)⟩
  obtain ⟨d, hd, rfl⟩ := Text.exists_digitChar_of_mem_toDigits (by decide) hc
  exact hdigit d hd

/-- The body of a refusal is the serialized record. -/
theorem body_response [ErrorLib] [LawfulErrors] (refusal : Refusal H E) :
    refusal.response.body = Body.fromBytes (Text.utf8 (write (.object refusal.members))) := by
  cases refusal with
  | unauthorized layer => rfl
  | forbidden => rfl
  | panicked => rfl
  | tooLarge limit => rfl
  | timedOut duration =>
    have hmessage := writeString_of_plain (isPlain_timeLimit (duration / 1000000))
    refine congrArg (fun text ↦ Body.fromBytes (Text.utf8 text)) ?_
    show _ = '{' :: (writeString "error".toList ++ ':' :: writeString "Request Timeout".toList ++
      ',' :: (writeString "code".toList ++ ':' :: Nat.toDigits 10 408 ++
        ',' :: (writeString "message".toList ++ ':' ::
          writeString ("Request exceeded the ".toList ++
          Nat.toDigits 10 (duration / 1000000) ++ "ms time limit".toList)))) ++ ['}']
    rw [hmessage]
    simp only [List.append_assoc, List.cons_append]
    rfl
  | tooManyRequests capacity retrySecs => rfl
  | notUpgraded rejection => cases rejection <;> rfl
  | error e =>
    show Body.fromBytes (Text.utf8 (ErrorLib.jsonError _ _)) = _
    rw [LawfulErrors.jsonError_eq]
    rfl
  | notBuilt builder data err h =>
    show (builder.json data).body = _
    rw [ResponseBuilder.json, toWriter, h]
    rfl
  | notSerialized data err h =>
    show (Core.Json.intoResponse data).body = _
    rw [Core.Json.intoResponse, toWriter, h]
    rfl

/-- A response that is a document with a record in it: the body is the record as a serializer writes
it, and the code in the record is the status. -/
structure Documented (response : Response H E (Body H)) (members : List (Str × Value)) : Prop where
  contentType : Multimap.getAll response.headers HeaderName.contentType =
    [HeaderValue.applicationJson]
  /-- The body is what a serializer writes for the record, and for nothing else. -/
  body : ∀ value, response.body.toBytes = .ok (Text.utf8 (write value)) ↔ value = .object members
  names : (members.map Prod.fst).Nodup
  code : members.lookup "code".toList = some (.number (.ofNat response.status.code))
  error : ∃ text, members.lookup "error".toList = some (.string text)

/-- The content type comes first among the headers of a refusal, and once. -/
theorem headers_response [ErrorLib] (refusal : Refusal H E) :
    ∃ items : List (HeaderName × HeaderValue), (∀ p ∈ items, p.1 ≠ HeaderName.contentType) ∧
      refusal.response.headers =
        ((HeaderName.contentType, HeaderValue.applicationJson) :: items).foldl
          (fun headers p ↦ Multimap.append headers p.1 p.2) Multimap.empty := by
  cases refusal with
  | unauthorized layer =>
    have hname : HeaderName.wwwAuthenticate ≠ HeaderName.contentType := by decide
    exact ⟨[(HeaderName.wwwAuthenticate, layer.strategy.wwwAuthenticateValue)],
      List.forall_mem_singleton.2 hname, rfl⟩
  | forbidden => exact ⟨[], nofun, rfl⟩
  | panicked => exact ⟨[], nofun, rfl⟩
  | tooLarge limit => exact ⟨[], nofun, rfl⟩
  | timedOut duration => exact ⟨[], nofun, rfl⟩
  | tooManyRequests capacity retrySecs =>
    refine ⟨[(HeaderName.retryAfter, .fromNat retrySecs),
      (HeaderName.xRatelimitLimit, .fromNat capacity),
      (HeaderName.xRatelimitRemaining, .fromStatic "0")], ?_, rfl⟩
    simp only [List.forall_mem_cons, List.not_mem_nil, false_imp_iff, implies_true, and_true]
    decide
  | notUpgraded rejection =>
    by_cases hversion : rejection = .invalidWebSocketVersionHeader
    · rw [hversion]
      exact ⟨[(HeaderName.secWebsocketVersion, .fromStatic "13")],
        List.forall_mem_singleton.2 (by decide), rfl⟩
    · refine ⟨[], nofun, ?_⟩
      show (rejection.intoResponse : Response H E (Body H)).headers = _
      rw [WebSocket.WebSocketUpgradeRejection.intoResponse, if_neg hversion]
      rfl
  | error e => exact ⟨[], nofun, rfl⟩
  | notBuilt builder data err h =>
    refine ⟨[], nofun, ?_⟩
    show (builder.json data).headers = _
    rw [ResponseBuilder.json, toWriter, h]
    rfl
  | notSerialized data err h =>
    refine ⟨[], nofun, ?_⟩
    show (Core.Json.intoResponse data).headers = _
    rw [Core.Json.intoResponse, toWriter, h]
    rfl

theorem contentType_response [ErrorLib] (refusal : Refusal H E) :
    Multimap.getAll refusal.response.headers HeaderName.contentType =
      [HeaderValue.applicationJson] := by
  obtain ⟨items, hitems, hheaders⟩ := headers_response refusal
  have hrest : Multimap.valuesFor HeaderName.contentType items = [] :=
    List.filterMap_eq_nil_iff.2 fun p hp ↦ if_neg (hitems p hp)
  rw [hheaders, Multimap.getAll_foldl_append, Multimap.getAll_empty, Multimap.valuesFor_cons,
    if_pos rfl, hrest]
  rfl

/-- The record of a refusal has a `code`, the status of the response, and a text for an `error`. -/
theorem lookup_members [ErrorLib] (refusal : Refusal H E) :
    refusal.members.lookup "code".toList =
        some (.number (.ofNat refusal.response.status.code)) ∧
      ∃ text, refusal.members.lookup "error".toList = some (.string text) := by
  cases refusal with
  | unauthorized layer => exact ⟨rfl, _, rfl⟩
  | forbidden => exact ⟨rfl, _, rfl⟩
  | panicked => exact ⟨rfl, _, rfl⟩
  | tooLarge limit => exact ⟨rfl, _, rfl⟩
  | timedOut duration => exact ⟨rfl, _, rfl⟩
  | tooManyRequests capacity retrySecs => exact ⟨rfl, _, rfl⟩
  | notUpgraded rejection =>
    have hstatus : (rejection.intoResponse : Response H E (Body H)).status = rejection.status := by
      cases rejection <;> rfl
    refine ⟨?_, _, rfl⟩
    show _ = some (Value.number (.ofNat
      (rejection.intoResponse : Response H E (Body H)).status.code))
    rw [hstatus]
    rfl
  | error e => exact ⟨rfl, _, rfl⟩
  | notBuilt builder data err h =>
    refine ⟨?_, _, rfl⟩
    show _ = some (Value.number (.ofNat (builder.json data : Response H E (Body H)).status.code))
    rw [ResponseBuilder.json, toWriter, h]
    rfl
  | notSerialized data err h =>
    refine ⟨?_, _, rfl⟩
    show _ = some (Value.number (.ofNat
      (Core.Json.intoResponse data : Response H E (Body H)).status.code))
    rw [Core.Json.intoResponse, toWriter, h]
    rfl

omit [Multimap H HeaderName HeaderValue] [Extensions E] in
theorem nodup_members [ErrorLib] (refusal : Refusal H E) :
    (refusal.members.map Prod.fst).Nodup := by
  cases refusal <;> exact of_decide_eq_true rfl

/-- **Refusals are documents**: what is sent is what a serializer writes for the record of the
refusal, and its code is the status of the response. -/
theorem documented [ErrorLib] [LawfulErrors] (refusal : Refusal H E) :
    Documented refusal.response refusal.members where
  contentType := contentType_response refusal
  body value := by
    rw [body_response, Body.toBytes_fromBytes]
    refine ⟨fun h ↦ ?_, fun h ↦ by rw [h]⟩
    exact (write_injective (Text.utf8_injective (Except.ok.inj h))).symm
  names := nodup_members refusal
  code := (lookup_members refusal).1
  error := (lookup_members refusal).2

section Upload

/-- No reason phrases, and the writer for errors. -/
local instance writtenErrors : ErrorLib where
  canonicalReason _ := none
  jsonError message code :=
    write (.object [("code".toList, .number (.ofNat code)), ("error".toList, .string message)])

private instance lawfulErrors_written : LawfulErrors := ⟨fun _ _ ↦ rfl⟩

/-- The error of an upload, with a quote in its message. -/
def uploadError : Error where
  status := .payloadTooLarge
  publicMessage := some "\"a.txt\" is too large".toList

/-- A client reads the message as it is. -/
theorem documented_uploadError :
    Documented (uploadError.intoResponse :
        Response (AssocList HeaderName HeaderValue) (Option Unit) (Body _))
      [("code".toList, .number (.ofNat 413)),
        ("error".toList, .string "\"a.txt\" is too large".toList)] :=
  documented (.error uploadError)

end Upload

end Refusal
