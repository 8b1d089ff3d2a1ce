import Arvik.Core.ResponseBuilder
import Arvik.Foundation.IpAddr
import Arvik.Middleware.RateLimit
import Mathlib.Algebra.Order.Floor.Semiring
import Mathlib.Data.Rat.Floor

/-!
# The rate limiter as a service

A request is charged to a key: the client's IP address, a header, or one key for everyone. The
address is looked up by type among the framework extensions of the request, where the connection's
peer address is expected (`extractIp`); without one, every request is charged to `unknown`.

Requests reach the service through the service closure of a connection (`serveRequest`), which
builds them with `Request.fromHyper`. Since that starts the framework extensions empty, the peer
address of the connection never arrives: `keyOnConnection_eq` gives the key of every request on
every connection.

No address is written `unknown`, because the text of an address has no letter outside the
hexadecimal digits, so the key is not even by chance that of the peer (`keyOnConnection_ne_toText`).
The statement covers whatever the application does with the limiter, but not a service of the
application that puts an address into the requests itself.

Parsing an address is a parameter, as only trusted proxies make use of it.
-/

namespace RateLimit

variable {H E B : Type} [Multimap H HeaderName HeaderValue] [Extensions E]
  [Extensions.Slot E SocketAddr]

/-! ### Key extraction -/

/-- How far client-supplied IP headers are trusted. -/
inductive ProxyTrust
  /-- Ignore proxy headers; key by socket address. -/
  | never
  /-- Honor them only when the immediate peer is one of these addresses. -/
  | trusted (proxies : List IpAddr)

/-- Where the key of a request comes from. -/
inductive KeyExtractor
  | ipAddress
  | header (name : Str)
  | global

/-- Upper bound on the length of a header key. -/
def maxHeaderKeyLen : ℕ := 128

/-- The walk over the reported hops, rightmost first: the first one that is not a trusted proxy.
Blank entries are skipped; a malformed one ends the walk. -/
def firstUntrusted (parse : Str → Option IpAddr) (proxies : List IpAddr) :
    List Str → Option IpAddr
  | [] => none
  | candidate :: rest =>
    if Text.trim candidate = [] then firstUntrusted parse proxies rest
    else match parse (Text.trim candidate) with
      | some ip => if ip ∉ proxies then some ip else firstUntrusted parse proxies rest
      | none => none

/-- The first value of a header as text. -/
def headerText (headers : H) (name : HeaderName) : Option Str :=
  (Multimap.get headers name).bind HeaderValue.toStr

/-- The client IP of a request. -/
def extractIp (parse : Str → Option IpAddr) (req : Request H E B) (trust : ProxyTrust) : Str :=
  match (Extensions.Slot.get req.extensions : Option SocketAddr) with
  | none => "unknown".toList
  | some addr =>
    match trust with
    | .never => addr.ip.toText
    | .trusted proxies =>
      if addr.ip ∉ proxies then addr.ip.toText
      else
        -- the forwarded addresses are read from the last one, up to the first that is not a proxy
        let hop := (headerText req.headers HeaderName.xForwardedFor).bind fun forwarded ↦
          firstUntrusted parse proxies (forwarded.splitOn ',').reverse
        (hop.getD addr.ip).toText

/-- The key of a request. -/
def KeyExtractor.extractKey (parse : Str → Option IpAddr) (self : KeyExtractor)
    (req : Request H E B) (trust : ProxyTrust) : Str :=
  match self with
  | ipAddress => extractIp parse req trust
  | header name =>
    let raw := ((HeaderName.fromStr name).bind (headerText req.headers)).getD "unknown".toList
    (Text.trim raw).take maxHeaderKeyLen
  | global => "__global__".toList

/-! ### The layer and its service -/

/-- The configuration of a rate limiter. -/
structure RateLimitLayer where
  capacity : ℕ
  /-- The window, in seconds. -/
  window : ℚ
  extractor : KeyExtractor := .ipAddress
  proxyTrust : ProxyTrust := .never

/-- A rate limiter; a zero window is refused. -/
def RateLimitLayer.new (capacity : ℕ) (window : ℚ) : Option RateLimitLayer :=
  if window = 0 then none else some { capacity, window }

/-- The refusal of a request: wait this many seconds. -/
def tooManyRequests [FromBytes B] (capacity retrySecs : ℕ) : Response H E B where
  status := .tooManyRequests
  headers := [(HeaderName.contentType, HeaderValue.applicationJson),
    (HeaderName.retryAfter, HeaderValue.fromNat retrySecs),
    (HeaderName.xRatelimitLimit, HeaderValue.fromNat capacity),
    (HeaderName.xRatelimitRemaining, HeaderValue.fromStatic "0")].foldl
      (fun headers p ↦ Multimap.append headers p.1 p.2) Multimap.empty
  extensions := Extensions.empty
  body := FromBytes.fromBytes (Text.utf8
    ("\x7b\"error\":\"Too Many Requests\",\"code\":429,\"retry_after\":".toList ++
      Nat.toDigits 10 retrySecs ++ "\x7d".toList))

/-- One request through the limiter, at a time: the store is charged, and the request is either
refused or passed on. -/
def RateLimitLayer.call [FromBytes B] (parse : Str → Option IpAddr) (self : RateLimitLayer)
    (inner : Request H E B → Response H E B) (store : BucketStore) (now : ℚ)
    (req : Request H E B) : BucketStore × Response H E B :=
  let key := self.extractor.extractKey parse req self.proxyTrust
  match store.tryConsume key self.capacity self.window now with
  | (store, some retrySecs) =>
    (store, tooManyRequests self.capacity (min ⌈retrySecs⌉₊ (2 ^ 64 - 1)))
  | (store, none) => (store, inner req)

/-! ### Requests of a connection -/

section Connection

variable {Incoming α : Type} (parse : Str → Option IpAddr) (newBody : Incoming → B)

/-- The service closure of a connection: every request read off it is converted and handed to the
service. The peer address is at hand, and is used for logging only. -/
def serveRequest {H E B Incoming α : Type} [Extensions E] (newBody : Incoming → B)
    (service : Request H E B → α) (_peerAddr : SocketAddr) (req : HttpRequest H E Incoming) : α :=
  service (Request.fromHyper newBody req)

/-- The key the default limiter charges a request of a connection to. -/
def keyOnConnection (peerAddr : SocketAddr) (req : HttpRequest H E Incoming) : Str :=
  serveRequest newBody (fun req ↦ KeyExtractor.ipAddress.extractKey parse req .never) peerAddr req

/-- Requests converted by `fromHyper` carry no peer address, whatever the trust in proxies. -/
theorem extractIp_fromHyper (req : HttpRequest H E Incoming) (trust : ProxyTrust) :
    extractIp parse (Request.fromHyper newBody req) trust = "unknown".toList := by
  have hempty : (Extensions.Slot.get (Request.fromHyper newBody req).extensions :
      Option SocketAddr) = none := Extensions.Slot.get_empty
  rw [extractIp, hempty]

/-- Every request on every connection is charged to the same key. -/
theorem keyOnConnection_eq (peerAddr : SocketAddr) (req : HttpRequest H E Incoming) :
    keyOnConnection parse newBody peerAddr req = "unknown".toList :=
  extractIp_fromHyper parse newBody req .never

/-- The fallback key is not the text of an address. -/
theorem unknown_ne_toText (ip : IpAddr) : "unknown".toList ≠ ip.toText := by
  intro h
  have hu : 'u' ∈ ip.toText := h ▸ by decide
  exact absurd (IpAddr.isTextChar_of_mem_toText hu) (by decide)

/-- On no connection is a request charged to the address of its peer, and any two requests, on any
two connections, are charged to the same key. -/
theorem keyOnConnection_ne_toText (peerAddr peerAddr' : SocketAddr)
    (req req' : HttpRequest H E Incoming) :
    keyOnConnection parse newBody peerAddr req ≠ peerAddr.ip.toText ∧
      keyOnConnection parse newBody peerAddr req =
        keyOnConnection parse newBody peerAddr' req' := by
  rw [keyOnConnection_eq, keyOnConnection_eq]
  exact ⟨unknown_ne_toText peerAddr.ip, rfl⟩

/-- A request of `203.0.113.7` is not charged to that address. -/
theorem peer_address_is_not_the_key :
    let peerAddr : SocketAddr := ⟨.v4 203 0 113 7, 50000⟩
    let req : HttpRequest (AssocList HeaderName HeaderValue) (Option SocketAddr) Bytes :=
      ⟨.get, { path := "/".toList }, Multimap.empty, none, [], .http11⟩
    keyOnConnection (fun _ ↦ none) id peerAddr req ≠ peerAddr.ip.toText := by
  decide

end Connection

end RateLimit
