import Arvik.Core.Accept
import Arvik.Core.Body
import Arvik.Core.FieldList

/-!
# Compression of responses and decompression of requests

`CompressionLayer` negotiates a coding from the request before the inner service runs, and then
streams the response body through an encoder, unless the response is already encoded, has nothing
worth compressing, or is known to be small. `DecompressionLayer` collects a request body with a
content encoding and decodes it. The codecs come from a library.

The compressing layer replaces the `Vary` header of the inner response
(`listed_vary_compressResponse`): what the response varied on before is kept only where the layer
does not touch the response (`keepsVary_iff`).

The layer has three outcomes: it leaves the response alone, it compresses it, or it only sets
`Vary`, where the body is known to be too small for it. `leaves` is the first of them as a predicate
on the request and the response, and the theorem compares the header before and after in each of the
others.
-/

variable {H E : Type} [Multimap H HeaderName HeaderValue]

/-! ### Compression -/

/-- The quality setting of the encoders. -/
inductive CompressionLevel
  | fastest
  | best
  | default
  deriving DecidableEq

/-- The codings the layer can produce. -/
inductive Encoding
  | gzip
  | br
  | zstd
  | deflate
  deriving DecidableEq

/-- The content coding of an encoder. -/
def Encoding.headerValue : Encoding → HeaderValue
  | gzip => HeaderValue.gzip
  | br => HeaderValue.br
  | zstd => HeaderValue.fromStatic "zstd"
  | deflate => HeaderValue.fromStatic "deflate"

/-- A stream of bytes; an item may be an error. -/
abbrev ByteStream := List (Except BoxError Bytes)

/-- The data of a stream; the first error ends it. -/
def ByteStream.bytes : ByteStream → Except BoxError Bytes
  | [] => .ok []
  | .error e :: _ => .error e
  | .ok chunk :: rest => (ByteStream.bytes rest).map (chunk ++ ·)

/-- The streaming encoders. -/
class EncoderLib where
  encode : Encoding → CompressionLevel → ByteStream → ByteStream

/-- The data of a body as a stream of bytes, which the first trailers frame ends. -/
def bodyByteStream : Polls H → ByteStream
  | [] => []
  | .error e :: rest => .error (.other e.toText) :: bodyByteStream rest
  | .ok (.data bytes) :: rest => .ok bytes :: bodyByteStream rest
  | .ok (.trailers _) :: _ => []

/-- The body read off a stream; nothing is known about its length. -/
def Body.fromStream (stream : ByteStream) : Body H where
  polls := stream.map (Except.map Frame.data)

/-- Content types worth compressing. -/
def shouldCompress (headers : H) : Bool :=
  match (Multimap.get headers HeaderName.contentType).bind HeaderValue.toStr with
  | none => false
  | some ct =>
    "text/".toList.isPrefixOf ct || Text.contains "json".toList ct ||
      Text.contains "xml".toList ct || Text.contains "javascript".toList ct ||
      Text.contains "css".toList ct || "application/wasm".toList.isPrefixOf ct ||
      "image/svg".toList.isPrefixOf ct

/-- The layer compressing responses: the codings it may use, and the size from which on it does. -/
structure CompressionLayer where
  gzip : Bool := true
  br : Bool := true
  zstd : Bool := true
  deflate : Bool := true
  level : CompressionLevel := .default
  minSize : ℕ := 1024

namespace CompressionLayer

/-- The candidates in order of preference. -/
def candidates (self : CompressionLayer) : List (Bool × Str × Encoding) :=
  [(self.zstd, "zstd".toList, .zstd), (self.br, "br".toList, .br),
    (self.gzip, "gzip".toList, .gzip), (self.deflate, "deflate".toList, .deflate)]

/-- The first enabled coding the client accepts. -/
def preferredEncoding [QualityLib] (self : CompressionLayer) (acceptEncoding : Str) :
    Option Encoding :=
  (self.candidates.find? fun candidate ↦
    candidate.1 && (Accept.negotiate [candidate.2.1] acceptEncoding).isSome).map fun candidate ↦
      candidate.2.2

/-- The coding negotiated for a request, from its first `Accept-Encoding` line. -/
def negotiated [QualityLib] (self : CompressionLayer) (headers : H) : Option Encoding :=
  (((Multimap.get headers HeaderName.acceptEncoding).bind HeaderValue.toStr).filter fun value ↦
    !value.isEmpty).bind self.preferredEncoding

theorem acceptEncoding_valid :
    (Text.utf8 "Accept-Encoding".toList).all isHeaderValueByte := by
  decide

/-- What a response varies on by being compressed. -/
def varyAcceptEncoding : HeaderValue :=
  HeaderValue.fromStatic "Accept-Encoding" acceptEncoding_valid

/-- A response through an encoder. -/
def compressResponse [EncoderLib] (response : Response H E (Body H)) (encoding : Encoding)
    (config : CompressionLayer) : Response H E (Body H) :=
  -- the size hint proves the body small: it is not compressed, but could have been
  if response.body.sizeHint.upper.any (· < config.minSize) then
    let headers := Multimap.insert response.headers HeaderName.vary varyAcceptEncoding
    { response with headers }
  else
    let headers := Multimap.insert response.headers HeaderName.contentEncoding encoding.headerValue
    let headers := Multimap.insert headers HeaderName.vary varyAcceptEncoding
    { response with
      headers := Multimap.remove headers HeaderName.contentLength
      body := Body.fromStream
        (EncoderLib.encode encoding config.level (bodyByteStream response.body.polls)) }

/-- A response on its way out: what was negotiated, the method of the request, the response. -/
def outgoing [EncoderLib] (config : CompressionLayer) (encoding : Option Encoding) (isHead : Bool)
    (response : Response H E (Body H)) : Response H E (Body H) :=
  match encoding with
  | none => response
  | some encoding =>
    if Multimap.containsKey response.headers HeaderName.contentEncoding then response
    else if isHead then response
    else if !shouldCompress response.headers then response
    else compressResponse response encoding config

/-- A request through the layer. -/
def call [QualityLib] [EncoderLib] {m : Type → Type} [Monad m] (self : CompressionLayer)
    (inner : Request H E (Body H) → m (Response H E (Body H))) (req : Request H E (Body H)) :
    m (Response H E (Body H)) := do
  let isHead := decide (req.method = .head)
  let encoding := self.negotiated req.headers
  let response ← inner req
  return self.outgoing encoding isHead response

/-! ### The header `Vary` -/

theorem names_varyAcceptEncoding :
    FieldList.names varyAcceptEncoding = [HeaderName.acceptEncoding] := by
  decide

/-- Compressing a response, or leaving a small one as it is, replaces what it varies on. -/
theorem listed_vary_compressResponse [EncoderLib] (config : CompressionLayer)
    (encoding : Encoding) (response : Response H E (Body H)) :
    FieldList.listed (compressResponse response encoding config).headers HeaderName.vary =
      [HeaderName.acceptEncoding] := by
  rw [compressResponse]
  split
  · show FieldList.listed (Multimap.insert _ _ _) _ = _
    rw [FieldList.listed_insert, if_pos rfl, names_varyAcceptEncoding]
  · show FieldList.listed (Multimap.remove (Multimap.insert _ _ _) _) _ = _
    rw [FieldList.listed_remove_of_ne _ (by decide), FieldList.listed_insert, if_pos rfl,
      names_varyAcceptEncoding]

/-- The layer leaves the response to a request as it is: no coding was negotiated, the request is
`HEAD`, or the response is encoded already or of a type not worth compressing. -/
def leaves [QualityLib] (self : CompressionLayer) (req : Request H E (Body H))
    (response : Response H E (Body H)) : Bool :=
  (self.negotiated req.headers).isNone ||
    Multimap.containsKey response.headers HeaderName.contentEncoding ||
    decide (req.method = .head) || !shouldCompress response.headers

theorem outgoing_of_leaves [QualityLib] [EncoderLib] {self : CompressionLayer}
    {req : Request H E (Body H)} {response : Response H E (Body H)}
    (h : self.leaves req response) :
    self.outgoing (self.negotiated req.headers) (decide (req.method = .head)) response =
      response := by
  rw [outgoing.eq_def]
  split
  · rfl
  · next hencoding =>
    rw [leaves, hencoding] at h
    simp only [Option.isNone_some, Bool.false_or, Bool.or_eq_true] at h
    split
    · rfl
    · next hencoded =>
      split
      · rfl
      · next hhead =>
        rcases h with (h | h) | h
        · exact absurd h hencoded
        · exact absurd h hhead
        · rw [if_pos h]

theorem exists_outgoing_of_not_leaves [QualityLib] [EncoderLib] {self : CompressionLayer}
    {req : Request H E (Body H)} {response : Response H E (Body H)}
    (h : self.leaves req response = false) :
    ∃ encoding,
      self.outgoing (self.negotiated req.headers) (decide (req.method = .head)) response =
        compressResponse response encoding self := by
  simp only [leaves, Bool.or_eq_false_iff] at h
  obtain ⟨⟨⟨hencoding, hencoded⟩, hhead⟩, htype⟩ := h
  obtain ⟨encoding, hencoding⟩ :=
    Option.isSome_iff_exists.1 (Option.isNone_eq_false_iff.1 hencoding)
  refine ⟨encoding, ?_⟩
  rw [hencoding, outgoing, if_neg (Bool.eq_false_iff.1 hencoded),
    if_neg (Bool.eq_false_iff.1 hhead), if_neg (Bool.eq_false_iff.1 htype)]

/-- **When the names an inner response varies on are kept**: the layer leaves the response as it
is, or they are no more than `Accept-Encoding`, which it sets itself. -/
theorem keepsVary_iff [QualityLib] [EncoderLib] (self : CompressionLayer)
    (inner : Request H E (Body H) → Id (Response H E (Body H))) (req : Request H E (Body H)) :
    (∀ name ∈ FieldList.listed (inner req).run.headers HeaderName.vary,
        name ∈ FieldList.listed (self.call inner req).run.headers HeaderName.vary) ↔
      self.leaves req (inner req).run ∨
        ∀ name ∈ FieldList.listed (inner req).run.headers HeaderName.vary,
          name = HeaderName.acceptEncoding := by
  have hcall : (self.call inner req).run =
      self.outgoing (self.negotiated req.headers) (decide (req.method = .head)) (inner req).run :=
    rfl
  rw [hcall]
  by_cases hleaves : self.leaves req (inner req).run
  · rw [outgoing_of_leaves hleaves]
    exact ⟨fun _ ↦ .inl hleaves, fun _ name hname ↦ hname⟩
  · obtain ⟨encoding, hout⟩ := exists_outgoing_of_not_leaves (Bool.eq_false_iff.2 hleaves)
    rw [hout, listed_vary_compressResponse]
    simp only [List.mem_singleton, hleaves, Bool.false_eq_true, false_or]

section Counterexample

/-- Qualities in thousandths. -/
local instance thousandths : QualityLib where
  Quality := ℕ
  one := 1000
  parse _ := none
  positive quality := decide (0 < quality)
  positive_one := by decide

/-- An encoder that leaves the data as it is. -/
local instance identityEncoder : EncoderLib := ⟨fun _ _ stream ↦ stream⟩

/-- A compressible response that varies on the origin. -/
private def variesOnOrigin : Response (AssocList HeaderName HeaderValue) (Option Unit)
    (Body (AssocList HeaderName HeaderValue)) where
  status := .ok
  headers := ⟨[(HeaderName.contentType, HeaderValue.applicationJson),
    (HeaderName.vary, HeaderValue.fromStatic "Origin")]⟩
  extensions := none
  body := Body.empty

/-- A client that accepts a coding. -/
private def acceptsGzip : Request (AssocList HeaderName HeaderValue) (Option Unit)
    (Body (AssocList HeaderName HeaderValue)) where
  inner := ⟨.get, { path := ['/'] },
    ⟨[(HeaderName.acceptEncoding, HeaderValue.gzip)]⟩, none, Body.empty, .http11⟩
  extensions := none

/-- The default layer drops the origin from the names a response varies on. -/
theorem not_keepsVary :
    ¬ ∀ name ∈ FieldList.listed variesOnOrigin.headers HeaderName.vary,
      name ∈ FieldList.listed (({} : CompressionLayer).call (m := Id)
        (fun _ ↦ pure variesOnOrigin) acceptsGzip).run.headers HeaderName.vary := by
  decide

end Counterexample

end CompressionLayer

/-! ### Decompression -/

section Decompression

variable [Extensions E]

/-- The decoders; `none` when the data is corrupt. -/
class DecoderLib where
  gzip : Bytes → Option Bytes
  brotli : Bytes → Option Bytes
  zstd : Bytes → Option Bytes
  deflate : Bytes → Option Bytes

/-- The layer decompressing request bodies. -/
structure DecompressionLayer

namespace DecompressionLayer

/-- The content encoding of a message, in lower case. -/
def encoding (headers : H) : Option Str :=
  ((Multimap.get headers HeaderName.contentEncoding).bind HeaderValue.toStr).map
    (List.map Text.toAsciiLowercase)

/-- Decode a body; `none` for an unknown encoding or corrupt data. -/
def decompress [DecoderLib] (encoding : Str) (bytes : Bytes) : Option Bytes :=
  if encoding = "gzip".toList then DecoderLib.gzip bytes
  else if encoding = "br".toList ∨ encoding = "brotli".toList then DecoderLib.brotli bytes
  else if encoding = "zstd".toList then DecoderLib.zstd bytes
  else if encoding = "deflate".toList then DecoderLib.deflate bytes
  else none

/-- The request passed on after collecting its body: decoded, or as it is. -/
def decoded [DecoderLib] (encoding : Str) (parts : RequestParts H E) (bytes : Bytes) :
    Request H E (Body H) :=
  match decompress encoding bytes with
  | some data =>
    -- the headers described the encoded body
    let headers := Multimap.insert (Multimap.remove parts.headers HeaderName.contentEncoding)
      HeaderName.contentLength (HeaderValue.fromNat data.length)
    Request.fromRequestParts { parts with headers } (Body.fromBytes data)
  | none => Request.fromRequestParts parts (Body.fromBytes bytes)

/-- The response when the body cannot be collected. -/
def unreadable : Response H E (Body H) where
  status := .badRequest
  headers := Multimap.empty
  extensions := Extensions.empty
  body := Body.fromBytes (Text.utf8 "Failed to read compressed body".toList)

/-- A request through the layer. -/
def call [DecoderLib] {m : Type → Type} [Monad m] (_self : DecompressionLayer)
    (inner : Request H E (Body H) → m (Response H E (Body H))) (req : Request H E (Body H)) :
    m (Response H E (Body H)) :=
  match encoding req.headers with
  | none => inner req
  | some encoding =>
    let (parts, body) := req.intoRequestParts
    match body.toBytes with
    | .ok bytes => inner (decoded encoding parts bytes)
    | .error _ => pure unreadable

/-- A request without a content encoding is passed on untouched. -/
theorem call_of_encoding_eq_none [DecoderLib] {m : Type → Type} [Monad m]
    (self : DecompressionLayer) (inner : Request H E (Body H) → m (Response H E (Body H)))
    {req : Request H E (Body H)} (h : encoding req.headers = none) :
    self.call inner req = inner req := by
  rw [call, h]

/-- An encoded body that cannot be collected is answered without the inner service. -/
theorem call_of_toBytes_eq_error [DecoderLib] {m : Type → Type} [Monad m]
    (self : DecompressionLayer) (inner : Request H E (Body H) → m (Response H E (Body H)))
    {req : Request H E (Body H)} {encoding' : Str} {e : BoxError}
    (hencoding : encoding req.headers = some encoding') (hbody : req.body.toBytes = .error e) :
    self.call inner req = pure unreadable := by
  rw [call, hencoding]
  show (match req.body.toBytes with
    | .ok bytes => inner (decoded encoding' req.intoRequestParts.1 bytes)
    | .error _ => pure unreadable) = _
  rw [hbody]

end DecompressionLayer

end Decompression
