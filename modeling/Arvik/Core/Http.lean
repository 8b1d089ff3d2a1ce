import Arvik.Foundation.Multimap
import Arvik.Foundation.Text

/-!
# HTTP messages

The message types the framework is written against. Header names and values carry the proof of their
own validity, so that a value that would be refused on construction cannot occur in a message.

Two ingredients stay parameters. The header map `H` is any `Multimap` from names to values. The
extension map `E` is any typed map: a type `T` is stored in it through a `Slot E T`, and only the
laws of that slot are ever used. Bodies `B` are a parameter as well, since different parts of the
framework look into different aspects of them.

So a theorem about a layer or an extractor holds for any representation of a message, and it says
nothing that depends on the order of header names or on how extensions are stored. Where a result
needs an example, the header map is an association list and the extensions are a record with the
slots that occur.

The lemmas are those that say what constructing and editing a message does to each of its parts.
They are simplification lemmas without exception, and the modules above never unfold a message.
-/

/-! ### Status codes, methods and URIs -/

/-- A three-digit status code. -/
structure StatusCode where
  /-- The code. -/
  code : ℕ
  valid : 100 ≤ code ∧ code < 1000 := by decide
  deriving DecidableEq, Repr

namespace StatusCode

def switchingProtocols : StatusCode := { code := 101 }
def ok : StatusCode := { code := 200 }
def noContent : StatusCode := { code := 204 }
def partialContent : StatusCode := { code := 206 }
def movedPermanently : StatusCode := { code := 301 }
def seeOther : StatusCode := { code := 303 }
def notModified : StatusCode := { code := 304 }
def temporaryRedirect : StatusCode := { code := 307 }
def badRequest : StatusCode := { code := 400 }
def unauthorized : StatusCode := { code := 401 }
def forbidden : StatusCode := { code := 403 }
def notFound : StatusCode := { code := 404 }
def methodNotAllowed : StatusCode := { code := 405 }
def requestTimeout : StatusCode := { code := 408 }
def payloadTooLarge : StatusCode := { code := 413 }
def unsupportedMediaType : StatusCode := { code := 415 }
def rangeNotSatisfiable : StatusCode := { code := 416 }
def unprocessableEntity : StatusCode := { code := 422 }
def upgradeRequired : StatusCode := { code := 426 }
def tooManyRequests : StatusCode := { code := 429 }
def internalServerError : StatusCode := { code := 500 }
def serviceUnavailable : StatusCode := { code := 503 }

/-- The three digits of a code. -/
def asStr (self : StatusCode) : Str :=
  Nat.toDigits 10 self.code

end StatusCode

/-- A request method; `extension` is any other token. -/
inductive Method
  | get
  | post
  | put
  | delete
  | head
  | options
  | connect
  | patch
  | trace
  | extension (name : Str)
  deriving DecidableEq, Repr

/-- The token of a method. -/
def Method.asStr : Method → Str
  | get => "GET".toList
  | post => "POST".toList
  | put => "PUT".toList
  | delete => "DELETE".toList
  | head => "HEAD".toList
  | options => "OPTIONS".toList
  | connect => "CONNECT".toList
  | patch => "PATCH".toList
  | trace => "TRACE".toList
  | extension name => name

/-- A request target. -/
structure Uri where
  scheme : Option Str := none
  authority : Option Str := none
  /-- The path, as sent: percent escapes are not decoded. -/
  path : Str
  /-- The query, without its question mark. -/
  query : Option Str := none
  deriving DecidableEq, Repr

/-! ### Header names and values -/

/-- The characters of a header name: lower-case token characters. -/
def isHeaderNameChar (c : Char) : Bool :=
  ('a' ≤ c && c ≤ 'z') || ('0' ≤ c && c ≤ '9') ||
    c ∈ ['!', '#', '$', '%', '&', '\'', '*', '+', '-', '.', '^', '_', '`', '|', '~']

/-- A header name, in lower case. -/
structure HeaderName where
  /-- The name. -/
  text : Str
  valid : text ≠ [] ∧ text.length ≤ 65535 ∧ text.all isHeaderNameChar
  deriving DecidableEq

/-- Names are compared and stored in lower case; anything but a token is refused. -/
def HeaderName.fromStr (s : Str) : Option HeaderName :=
  let text := s.map Text.toAsciiLowercase
  if h : text ≠ [] ∧ text.length ≤ 65535 ∧ text.all isHeaderNameChar then
    some ⟨text, h⟩
  else
    none

namespace HeaderName

def acceptEncoding : HeaderName := ⟨"accept-encoding".toList, by decide⟩
def acceptRanges : HeaderName := ⟨"accept-ranges".toList, by decide⟩
def accessControlAllowCredentials : HeaderName :=
  ⟨"access-control-allow-credentials".toList, by decide⟩
def accessControlAllowHeaders : HeaderName := ⟨"access-control-allow-headers".toList, by decide⟩
def accessControlAllowMethods : HeaderName := ⟨"access-control-allow-methods".toList, by decide⟩
def accessControlAllowOrigin : HeaderName := ⟨"access-control-allow-origin".toList, by decide⟩
def accessControlExposeHeaders : HeaderName :=
  ⟨"access-control-expose-headers".toList, by decide⟩
def accessControlMaxAge : HeaderName := ⟨"access-control-max-age".toList, by decide⟩
def accessControlRequestHeaders : HeaderName :=
  ⟨"access-control-request-headers".toList, by decide⟩
def accessControlRequestMethod : HeaderName :=
  ⟨"access-control-request-method".toList, by decide⟩
def allow : HeaderName := ⟨"allow".toList, by decide⟩
def authorization : HeaderName := ⟨"authorization".toList, by decide⟩
def b3 : HeaderName := ⟨"b3".toList, by decide⟩
def cacheControl : HeaderName := ⟨"cache-control".toList, by decide⟩
def connection : HeaderName := ⟨"connection".toList, by decide⟩
def contentEncoding : HeaderName := ⟨"content-encoding".toList, by decide⟩
def contentLength : HeaderName := ⟨"content-length".toList, by decide⟩
def contentRange : HeaderName := ⟨"content-range".toList, by decide⟩
def contentSecurityPolicy : HeaderName := ⟨"content-security-policy".toList, by decide⟩
def contentType : HeaderName := ⟨"content-type".toList, by decide⟩
def cookie : HeaderName := ⟨"cookie".toList, by decide⟩
def etag : HeaderName := ⟨"etag".toList, by decide⟩
def ifModifiedSince : HeaderName := ⟨"if-modified-since".toList, by decide⟩
def ifRange : HeaderName := ⟨"if-range".toList, by decide⟩
def ifNoneMatch : HeaderName := ⟨"if-none-match".toList, by decide⟩
def lastModified : HeaderName := ⟨"last-modified".toList, by decide⟩
def link : HeaderName := ⟨"link".toList, by decide⟩
def location : HeaderName := ⟨"location".toList, by decide⟩
def origin : HeaderName := ⟨"origin".toList, by decide⟩
def permissionsPolicy : HeaderName := ⟨"permissions-policy".toList, by decide⟩
def proxyAuthorization : HeaderName := ⟨"proxy-authorization".toList, by decide⟩
def range : HeaderName := ⟨"range".toList, by decide⟩
def referrerPolicy : HeaderName := ⟨"referrer-policy".toList, by decide⟩
def retryAfter : HeaderName := ⟨"retry-after".toList, by decide⟩
def secWebsocketAccept : HeaderName := ⟨"sec-websocket-accept".toList, by decide⟩
def secWebsocketExtensions : HeaderName := ⟨"sec-websocket-extensions".toList, by decide⟩
def secWebsocketKey : HeaderName := ⟨"sec-websocket-key".toList, by decide⟩
def secWebsocketProtocol : HeaderName := ⟨"sec-websocket-protocol".toList, by decide⟩
def secWebsocketVersion : HeaderName := ⟨"sec-websocket-version".toList, by decide⟩
def setCookie : HeaderName := ⟨"set-cookie".toList, by decide⟩
def strictTransportSecurity : HeaderName := ⟨"strict-transport-security".toList, by decide⟩
def traceparent : HeaderName := ⟨"traceparent".toList, by decide⟩
def tracestate : HeaderName := ⟨"tracestate".toList, by decide⟩
def uberTraceId : HeaderName := ⟨"uber-trace-id".toList, by decide⟩
def upgrade : HeaderName := ⟨"upgrade".toList, by decide⟩
def vary : HeaderName := ⟨"vary".toList, by decide⟩
def wwwAuthenticate : HeaderName := ⟨"www-authenticate".toList, by decide⟩
def xApiKey : HeaderName := ⟨"x-api-key".toList, by decide⟩
def xB3Flags : HeaderName := ⟨"x-b3-flags".toList, by decide⟩
def xB3Sampled : HeaderName := ⟨"x-b3-sampled".toList, by decide⟩
def xB3Spanid : HeaderName := ⟨"x-b3-spanid".toList, by decide⟩
def xB3Traceid : HeaderName := ⟨"x-b3-traceid".toList, by decide⟩
def xContentTypeOptions : HeaderName := ⟨"x-content-type-options".toList, by decide⟩
def xCsrfToken : HeaderName := ⟨"x-csrf-token".toList, by decide⟩
def xForwardedFor : HeaderName := ⟨"x-forwarded-for".toList, by decide⟩
def xFrameOptions : HeaderName := ⟨"x-frame-options".toList, by decide⟩
def xRatelimitLimit : HeaderName := ⟨"x-ratelimit-limit".toList, by decide⟩
def xRatelimitRemaining : HeaderName := ⟨"x-ratelimit-remaining".toList, by decide⟩
def xRequestId : HeaderName := ⟨"x-request-id".toList, by decide⟩
def xXssProtection : HeaderName := ⟨"x-xss-protection".toList, by decide⟩

end HeaderName

/-- The bytes a header value may hold: everything but control characters, tab excepted. -/
def isHeaderValueByte (b : UInt8) : Bool :=
  (32 ≤ b && b != 127) || b == 9

/-- The bytes a header value may hold to be read as text. -/
def isVisibleAscii (b : UInt8) : Bool :=
  (32 ≤ b && b < 127) || b == 9

/-- A header value. -/
structure HeaderValue where
  /-- The bytes sent. -/
  bytes : Bytes
  valid : bytes.all isHeaderValueByte
  deriving DecidableEq

namespace HeaderValue

/-- A value from raw bytes. -/
def fromBytes (bytes : Bytes) : Option HeaderValue :=
  if h : bytes.all isHeaderValueByte then some ⟨bytes, h⟩ else none

/-- A value from a text, refused when it holds a control character. -/
def fromStr (s : Str) : Option HeaderValue :=
  fromBytes (Text.utf8 s)

/-- A value from a constant text, known to be valid. -/
def fromStatic (s : String)
    (h : (Text.utf8 s.toList).all isHeaderValueByte := by decide) : HeaderValue :=
  ⟨Text.utf8 s.toList, h⟩

def applicationJson : HeaderValue := fromStatic "application/json"
def textPlainUtf8 : HeaderValue := fromStatic "text/plain; charset=utf-8"
def br : HeaderValue := fromStatic "br"
def gzip : HeaderValue := fromStatic "gzip"

/-- The value as text, if it is visible ASCII throughout. -/
def toStr (v : HeaderValue) : Option Str :=
  if v.bytes.all isVisibleAscii then some (v.bytes.map fun b ↦ Char.ofNat b.toNat) else none

theorem bytes_injective : Function.Injective bytes := by
  rintro ⟨bytes, -⟩ ⟨_, -⟩ rfl
  rfl

theorem fromBytes_bytes {bytes : Bytes} {v : HeaderValue} (h : fromBytes bytes = some v) :
    v.bytes = bytes := by
  rw [fromBytes] at h
  split at h
  · rw [← Option.some.inj h]
  · cases h

theorem fromStr_bytes {s : Str} {v : HeaderValue} (h : fromStr s = some v) :
    v.bytes = Text.utf8 s :=
  fromBytes_bytes h

/-- A visible ASCII character is its own byte. -/
private theorem visible_byte {c : Char} (hc : 32 ≤ c.toNat ∧ c.toNat < 127) :
    isHeaderValueByte (UInt8.ofNat c.toNat) ∧ isVisibleAscii (UInt8.ofNat c.toNat) ∧
      Char.ofNat (UInt8.ofNat c.toNat).toNat = c := by
  obtain ⟨hlo, hhi⟩ := hc
  have hnat := Text.toNat_ofNat_of_ascii (c := c) (by omega)
  have hle : (32 : UInt8) ≤ UInt8.ofNat c.toNat := by
    rw [UInt8.le_iff_toNat_le, hnat]
    exact hlo
  have hlt : UInt8.ofNat c.toNat < (127 : UInt8) := by
    rw [UInt8.lt_iff_toNat_lt, hnat]
    exact hhi
  have hne : UInt8.ofNat c.toNat ≠ (127 : UInt8) := by
    intro h
    rw [h] at hlt
    exact absurd hlt (by decide)
  refine ⟨?_, ?_, ?_⟩
  · simp [isHeaderValueByte, hle, hne]
  · simp [isVisibleAscii, hle, hlt]
  · rw [hnat, Char.ofNat_toNat]

/-- The bytes of a text of visible ASCII are valid and visible. -/
theorem visible_of_mem_utf8 {s : Str} (h : ∀ c ∈ s, 32 ≤ c.toNat ∧ c.toNat < 127) {b : UInt8}
    (hb : b ∈ Text.utf8 s) : isHeaderValueByte b ∧ isVisibleAscii b := by
  rw [Text.utf8_of_ascii fun c hc ↦ by have := h c hc; omega] at hb
  obtain ⟨c, hc, rfl⟩ := List.mem_map.1 hb
  exact ⟨(visible_byte (h c hc)).1, (visible_byte (h c hc)).2.1⟩

/-- A text of visible ASCII is read back from its bytes. -/
theorem map_ofNat_utf8 {s : Str} (h : ∀ c ∈ s, 32 ≤ c.toNat ∧ c.toNat < 127) :
    (Text.utf8 s).map (fun b ↦ Char.ofNat b.toNat) = s := by
  rw [Text.utf8_of_ascii fun c hc ↦ by have := h c hc; omega, List.map_map]
  exact (List.map_congr_left fun c hc ↦ (visible_byte (h c hc)).2.2).trans (List.map_id s)

/-- A text of visible ASCII is a valid value, and reads back as itself. -/
theorem fromStr_visible {s : Str} (h : ∀ c ∈ s, 32 ≤ c.toNat ∧ c.toNat < 127) :
    ∃ v, fromStr s = some v ∧ v.toStr = some s := by
  have hvalid : (Text.utf8 s).all isHeaderValueByte :=
    List.all_eq_true.2 fun b hb ↦ (visible_of_mem_utf8 h hb).1
  refine ⟨⟨Text.utf8 s, hvalid⟩, dif_pos hvalid, ?_⟩
  have hall : (Text.utf8 s).all isVisibleAscii :=
    List.all_eq_true.2 fun b hb ↦ (visible_of_mem_utf8 h hb).2
  rw [toStr, if_pos hall]
  exact congrArg some (map_ofNat_utf8 h)

theorem digitChar_visible {d : ℕ} (hd : d < 16) :
    32 ≤ (Nat.digitChar d).toNat ∧ (Nat.digitChar d).toNat < 127 := by
  have hall : ∀ d : Fin 16, 32 ≤ (Nat.digitChar d).toNat ∧ (Nat.digitChar d).toNat < 127 := by
    decide
  exact hall ⟨d, hd⟩

/-- The digits of a number are visible. -/
theorem visible_of_mem_toDigits {base n : ℕ} (h0 : 0 < base) (h16 : base ≤ 16) {c : Char}
    (hc : c ∈ Nat.toDigits base n) : 32 ≤ c.toNat ∧ c.toNat < 127 := by
  obtain ⟨d, hd, rfl⟩ := Text.exists_digitChar_of_mem_toDigits h0 hc
  exact digitChar_visible (Nat.lt_of_lt_of_le hd h16)

theorem toDigits_visible {n : ℕ} : ∀ c ∈ Nat.toDigits 10 n, 32 ≤ c.toNat ∧ c.toNat < 127 :=
  fun _ hc ↦ visible_of_mem_toDigits (by decide) (by decide) hc

/-- A text of visible ASCII as a header value. -/
def ofVisible (s : Str) (h : ∀ c ∈ s, 32 ≤ c.toNat ∧ c.toNat < 127) : HeaderValue where
  bytes := Text.utf8 s
  valid := List.all_eq_true.2 fun _ hb ↦ (visible_of_mem_utf8 h hb).1

theorem toStr_ofVisible {s : Str} (h : ∀ c ∈ s, 32 ≤ c.toNat ∧ c.toNat < 127) :
    (ofVisible s h).toStr = some s := by
  have hall : (Text.utf8 s).all isVisibleAscii :=
    List.all_eq_true.2 fun b hb ↦ (visible_of_mem_utf8 h hb).2
  rw [toStr, ofVisible, if_pos hall]
  exact congrArg some (map_ofNat_utf8 h)

theorem isVisibleAscii_iff {b : UInt8} :
    isVisibleAscii b ↔ b.toNat = 9 ∨ 32 ≤ b.toNat ∧ b.toNat < 127 := by
  rw [isVisibleAscii, Bool.or_eq_true, Bool.and_eq_true, decide_eq_true_eq, decide_eq_true_eq,
    beq_iff_eq, UInt8.lt_iff_toNat_lt, UInt8.le_iff_toNat_le, ← UInt8.toNat_inj, or_comm]
  rfl

theorem lt_of_isVisibleAscii {b : UInt8} (h : isVisibleAscii b) : b.toNat < 128 := by
  have := isVisibleAscii_iff.1 h
  omega

/-- The text of a value has the bytes of the value. -/
theorem utf8_of_toStr {v : HeaderValue} {s : Str} (h : v.toStr = some s) :
    Text.utf8 s = v.bytes := by
  obtain ⟨hall, hs⟩ := Option.ite_none_right_eq_some.1 h
  have hnat : ∀ b ∈ v.bytes, (Char.ofNat b.toNat).toNat = b.toNat ∧ b.toNat < 128 := by
    intro b hb
    have hlt := lt_of_isVisibleAscii (List.all_eq_true.1 hall b hb)
    have hvalid : b.toNat.isValidChar := .inl (Nat.lt_trans hlt (by decide))
    rw [Char.ofNat, dif_pos hvalid]
    exact ⟨rfl, hlt⟩
  have hascii : ∀ c ∈ s, c.toNat < 128 := by
    intro c hc
    rw [← Option.some.inj hs] at hc
    obtain ⟨b, hb, rfl⟩ := List.mem_map.1 hc
    rw [(hnat b hb).1]
    exact (hnat b hb).2
  rw [Text.utf8_of_ascii hascii, ← Option.some.inj hs, List.map_map]
  refine (List.map_congr_left fun b hb ↦ ?_).trans (List.map_id _)
  rw [Function.comp_apply, (hnat b hb).1, UInt8.ofNat_toNat, id]

/-- A value reads as a text if it has the bytes of the text, which is printable but for tabs. -/
theorem toStr_eq_some_iff {v : HeaderValue} {s : Str} :
    v.toStr = some s ↔
      v.bytes = Text.utf8 s ∧ ∀ c ∈ s, c.toNat = 9 ∨ 32 ≤ c.toNat ∧ c.toNat < 127 := by
  constructor
  · intro h
    refine ⟨(utf8_of_toStr h).symm, fun c hc ↦ ?_⟩
    obtain ⟨hall, hs⟩ := Option.ite_none_right_eq_some.1 h
    obtain ⟨b, hb, rfl⟩ := List.mem_map.1 (Option.some.inj hs ▸ hc)
    have hvalid : b.toNat.isValidChar := .inl (Nat.lt_trans b.toNat_lt (by decide))
    rw [Char.ofNat, dif_pos hvalid]
    exact isVisibleAscii_iff.1 (List.all_eq_true.1 hall b hb)
  · rintro ⟨hbytes, hs⟩
    have hascii : ∀ c ∈ s, c.toNat < 128 := fun c hc ↦ by
      have := hs c hc
      omega
    have hutf8 := Text.utf8_of_ascii hascii
    have hall : v.bytes.all isVisibleAscii := by
      refine List.all_eq_true.2 fun b hb ↦ isVisibleAscii_iff.2 ?_
      rw [hbytes, hutf8] at hb
      obtain ⟨c, hc, rfl⟩ := List.mem_map.1 hb
      rw [Text.toNat_ofNat_of_ascii (hascii c hc)]
      exact hs c hc
    rw [toStr, if_pos hall, hbytes, hutf8, List.map_map]
    refine congrArg some ((List.map_congr_left fun c hc ↦ ?_).trans (List.map_id s))
    rw [Function.comp_apply, Text.toNat_ofNat_of_ascii (hascii c hc), Char.ofNat_toNat, id]

/-- A number as a header value. -/
def fromNat (n : ℕ) : HeaderValue where
  bytes := Text.utf8 (Nat.toDigits 10 n)
  valid := List.all_eq_true.2 fun _ hb ↦ (visible_of_mem_utf8 toDigits_visible hb).1

end HeaderValue

/-- Fallible conversion into header names and values. -/
class TryInto (A B : Type) where
  tryInto : A → Option B

instance {A : Type} : TryInto A A := ⟨some⟩
instance : TryInto Str HeaderName := ⟨HeaderName.fromStr⟩
instance : TryInto Str HeaderValue := ⟨HeaderValue.fromStr⟩

/-! ### Extensions and bodies -/

/-- A typed extension map. -/
class Extensions (E : Type) where
  /-- The map without entries. -/
  empty : E

/-- The entry of one type in an extension map. -/
class Extensions.Slot (E : Type) [Extensions E] (T : Type) where
  get : E → Option T
  insert : E → T → E
  get_empty : get Extensions.empty = none
  get_insert : ∀ e t, get (insert e t) = some t

attribute [simp] Extensions.Slot.get_empty Extensions.Slot.get_insert

/-- Two types have entries of their own: storing one leaves the other as it is. -/
class Extensions.Apart (E : Type) [Extensions E] (T U : Type) [Extensions.Slot E T]
    [Extensions.Slot E U] : Prop where
  get_insert : ∀ (e : E) (u : U),
    (Extensions.Slot.get (Extensions.Slot.insert e u) : Option T) = Extensions.Slot.get e

attribute [simp] Extensions.Apart.get_insert

/-- The map with room for one type. -/
instance {T : Type} : Extensions (Option T) := ⟨none⟩

instance {T : Type} : Extensions.Slot (Option T) T where
  get := id
  insert _ t := some t
  get_empty := rfl
  get_insert _ _ := rfl

section Pair

variable {E F T : Type} [Extensions E] [Extensions F]

/-- A pair of extension maps holds what either of them holds. -/
instance : Extensions (E × F) := ⟨(Extensions.empty, Extensions.empty)⟩

instance [Extensions.Slot E T] : Extensions.Slot (E × F) T where
  get e := Extensions.Slot.get e.1
  insert e t := (Extensions.Slot.insert e.1 t, e.2)
  get_empty := Extensions.Slot.get_empty
  get_insert e := Extensions.Slot.get_insert e.1

instance [Extensions.Slot F T] : Extensions.Slot (E × F) T where
  get e := Extensions.Slot.get e.2
  insert e t := (e.1, Extensions.Slot.insert e.2 t)
  get_empty := Extensions.Slot.get_empty
  get_insert e := Extensions.Slot.get_insert e.2

variable {U : Type}

instance [Extensions.Slot E T] [Extensions.Slot F U] : Extensions.Apart (E × F) T U :=
  ⟨fun _ _ ↦ rfl⟩

instance [Extensions.Slot F T] [Extensions.Slot E U] : Extensions.Apart (E × F) T U :=
  ⟨fun _ _ ↦ rfl⟩

instance [Extensions.Slot F T] [Extensions.Slot F U] [Extensions.Apart F T U] :
    Extensions.Apart (E × F) T U :=
  ⟨fun e ↦ Extensions.Apart.get_insert e.2⟩

end Pair

/-- A body type with the two constructors every response builder uses. -/
class FromBytes (B : Type) where
  /-- The body without data. -/
  empty : B
  /-- The body holding these bytes. -/
  fromBytes : Bytes → B

/-! ### Messages -/

/-- The version of a request. -/
inductive Version
  | http09
  | http10
  | http11
  | http2
  | http3
  deriving DecidableEq

/-- A request of the HTTP library. -/
structure HttpRequest (H E B : Type) where
  method : Method
  uri : Uri
  headers : H
  extensions : E
  body : B
  version : Version := .http11

/-- A response. -/
structure Response (H E B : Type) where
  status : StatusCode
  headers : H
  extensions : E
  body : B

/-- The framework's request: a library request with an extension map of its own, kept apart from
the library's. -/
structure Request (H E B : Type) where
  inner : HttpRequest H E B
  /-- The framework extensions. -/
  extensions : E

namespace Request

variable {H E B : Type} [Extensions E]

/-- Wrap a library request; the framework extensions start empty. -/
def new (inner : HttpRequest H E B) : Request H E B where
  inner := inner
  extensions := Extensions.empty

/-- The request read off a connection. Its body is wrapped by `newBody`; the framework extensions
start empty, whatever the library's extensions hold. -/
def fromHyper {Incoming : Type} (newBody : Incoming → B) (req : HttpRequest H E Incoming) :
    Request H E B where
  inner := { req with body := newBody req.body }
  extensions := Extensions.empty

omit [Extensions E]

def method (req : Request H E B) : Method :=
  req.inner.method

def uri (req : Request H E B) : Uri :=
  req.inner.uri

def headers (req : Request H E B) : H :=
  req.inner.headers

def body (req : Request H E B) : B :=
  req.inner.body

def version (req : Request H E B) : Version :=
  req.inner.version

/-- The request with a framework extension stored. -/
def insertExtension {T : Type} [Extensions.Slot E T] (req : Request H E B) (t : T) :
    Request H E B :=
  { req with extensions := Extensions.Slot.insert req.extensions t }

/-- The request for another target. -/
def withUri (req : Request H E B) (uri : Uri) : Request H E B :=
  { req with inner := { req.inner with uri := uri } }

end Request

/-- The response with an extension stored. -/
def Response.insertExtension {H E B T : Type} [Extensions E] [Extensions.Slot E T]
    (response : Response H E B) (t : T) : Response H E B :=
  { response with extensions := Extensions.Slot.insert response.extensions t }

/-- Two requests that differ in the values of some headers at most. -/
structure Request.SameExcept {H E B : Type} [Multimap H HeaderName HeaderValue]
    (names : List HeaderName) (req₁ req₂ : Request H E B) : Prop where
  method : req₁.method = req₂.method
  uri : req₁.uri = req₂.uri
  version : req₁.version = req₂.version
  headers : ∀ name ∉ names,
    Multimap.getAll req₁.headers name = Multimap.getAll req₂.headers name
  httpExtensions : req₁.inner.extensions = req₂.inner.extensions
  body : req₁.body = req₂.body
  extensions : req₁.extensions = req₂.extensions

/-- The non-body part of a framework request. -/
structure RequestParts (H E : Type) where
  method : Method
  uri : Uri
  headers : H
  /-- The extensions of the library. -/
  httpExtensions : E
  /-- The framework extensions. -/
  extensions : E
  version : Version := .http11

/-- Split a request into its parts and its body. -/
def Request.intoRequestParts {H E B : Type} (req : Request H E B) : RequestParts H E × B :=
  (⟨req.method, req.uri, req.headers, req.inner.extensions, req.extensions, req.version⟩,
    req.body)

/-- Put a split request back together. -/
def Request.fromRequestParts {H E B : Type} (parts : RequestParts H E) (body : B) :
    Request H E B where
  inner := ⟨parts.method, parts.uri, parts.headers, parts.httpExtensions, body, parts.version⟩
  extensions := parts.extensions
