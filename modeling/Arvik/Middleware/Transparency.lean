import Arvik.Middleware.CompressionCaching

/-!
# What a client gets through compression

A client that undoes the content coding a response declares should not notice the compressing
layer. The client here decodes as the decompressing layer does, and a response is compared in what
is left then: its status, the headers that say nothing about the coding, the content or the error
that ends it, and the trailers (`Response.view`). Of the encoders and decoders of the library it is
assumed that they undo each other, and that an error of the stream passes (`LawfulCodecs`).

## The argument

A response that gets no coding leaves with everything but its `Vary` header, which is not compared.
One that gets a coding had none before, so the client decodes just what the layer encoded: the
layer and the client name the codings alike (`DecompressionLayer.encoding_of_getAll`), and the
stream that was encoded has all data of the body, or its error, if no trailers came before
(`bytes_bodyByteStream`).

The layer ends the stream of data with the first trailers frame and sends no trailers itself. So
it is transparent exactly for the responses that it leaves alone, or that have no trailers
(`transparent_iff`).
-/

variable {H E : Type} [Multimap H HeaderName HeaderValue]

/-! ### The codecs -/

/-- The decoder of a coding. -/
def Encoding.decode [DecoderLib] : Encoding → Bytes → Option Bytes
  | gzip => DecoderLib.gzip
  | br => DecoderLib.brotli
  | zstd => DecoderLib.zstd
  | deflate => DecoderLib.deflate

/-- Encoders and decoders that undo each other, however the data was cut into chunks. -/
class LawfulCodecs [EncoderLib] [DecoderLib] : Prop where
  /-- What was encoded can be decoded. -/
  exists_encoded : ∀ (encoding : Encoding) (level : CompressionLevel) {stream : ByteStream}
    {data : Bytes}, stream.bytes = .ok data →
      ∃ encoded, (EncoderLib.encode encoding level stream).bytes = .ok encoded ∧
        encoding.decode encoded = some data
  /-- An error of the stream ends the encoded stream, too. -/
  encode_error : ∀ (encoding : Encoding) (level : CompressionLevel) {stream : ByteStream}
    {e : BoxError}, stream.bytes = .error e →
      (EncoderLib.encode encoding level stream).bytes = .error e

namespace DecompressionLayer

/-- The decompressing layer knows the codings of the compressing one. -/
theorem encoding_of_getAll {headers : H} {coding : Encoding}
    (h : Multimap.getAll headers HeaderName.contentEncoding = [coding.headerValue]) :
    ∃ name, encoding headers = some name ∧
      ∀ [DecoderLib] (bytes : Bytes), decompress name bytes = coding.decode bytes := by
  have hencoding : encoding headers =
      coding.headerValue.toStr.map (List.map Text.toAsciiLowercase) := by
    rw [encoding, Multimap.get, h]
    rfl
  rw [hencoding]
  cases coding with
  | gzip => exact ⟨"gzip".toList, by decide, fun bytes ↦ rfl⟩
  | br => exact ⟨"br".toList, by decide, fun bytes ↦ rfl⟩
  | zstd => exact ⟨"zstd".toList, by decide, fun bytes ↦ rfl⟩
  | deflate => exact ⟨"deflate".toList, by decide, fun bytes ↦ rfl⟩

end DecompressionLayer

/-! ### What a client gets -/

/-- The trailers a reader meets before the stream fails. -/
def Body.trailers : Polls H → List H
  | [] => []
  | .error _ :: _ => []
  | .ok (.data _) :: rest => trailers rest
  | .ok (.trailers headers) :: rest => headers :: trailers rest

/-- What a client makes of a response. -/
@[ext]
structure View (H E : Type) where
  status : StatusCode
  /-- The headers, without those that are about the coding. -/
  fields : HeaderName → List HeaderValue
  extensions : E
  /-- The decoded data, if it can be decoded, or the error that ends it. -/
  content : Except Str (Option Bytes)
  trailers : List H

/-- The headers that are about the coding of a response. -/
def codingHeaders : List HeaderName :=
  [HeaderName.vary, HeaderName.contentLength, HeaderName.contentEncoding]

/-- Decode data by the coding that headers declare. -/
def decodeBy [DecoderLib] (headers : H) (bytes : Bytes) : Option Bytes :=
  match DecompressionLayer.encoding headers with
  | none => some bytes
  | some encoding => DecompressionLayer.decompress encoding bytes

/-- A response, to a client that decodes it. -/
def Response.view [DecoderLib] (response : Response H E (Body H)) : View H E where
  status := response.status
  fields name := if name ∈ codingHeaders then [] else Multimap.getAll response.headers name
  extensions := response.extensions
  content := (response.body.toBytes.mapError BoxError.toText).map (decodeBy response.headers)
  trailers := Body.trailers response.body.polls

omit [Multimap H HeaderName HeaderValue] in
theorem Body.toBytes_fromStream (stream : ByteStream) :
    (Body.fromStream stream : Body H).toBytes = stream.bytes := by
  induction stream with
  | nil => rfl
  | cons item rest ih =>
    rcases item with e | chunk
    · rfl
    · exact congrArg (Except.map (chunk ++ ·)) ih

omit [Multimap H HeaderName HeaderValue] in
theorem Body.trailers_fromStream (stream : ByteStream) :
    Body.trailers (Body.fromStream stream : Body H).polls = [] := by
  induction stream with
  | nil => rfl
  | cons item rest ih =>
    rcases item with e | chunk
    · rfl
    · exact ih

omit [Multimap H HeaderName HeaderValue] in
/-- Without trailers the stream for the encoders has all data of the body, and its error. -/
theorem bytes_bodyByteStream {polls : Polls H} (h : Body.trailers polls = []) :
    (bodyByteStream polls).bytes =
      (Body.collect polls).mapError fun e ↦ .other e.toText := by
  induction polls with
  | nil => rfl
  | cons answer rest ih =>
    match answer with
    | .error _ => rfl
    | .ok (.trailers _) => exact absurd h (List.cons_ne_nil _ _)
    | .ok (.data bytes) =>
      rw [bodyByteStream, ByteStream.bytes, ih h, Body.collect]
      rcases Body.collect rest with e | data
      · rfl
      · rfl

/-! ### Transparency -/

namespace CompressionLayer

section Transparent

variable [QualityLib] [EncoderLib] [DecoderLib] {self : CompressionLayer}
  {response : Response H E (Body H)} {req : Request H E (Body H)}

/-- A response that gets no coding is the same to a client. -/
theorem view_answer_of_coding_eq_none (h : self.coding response req = none) :
    (self.answer response req).view = response.view := by
  rcases answer_of_coding_eq_none h with hanswer | hanswer
  · rw [hanswer]
  · rw [hanswer]
    have hfields : ∀ name ∉ codingHeaders, Multimap.getAll
        (Multimap.insert response.headers HeaderName.vary varyAcceptEncoding) name =
          Multimap.getAll response.headers name := fun name hname ↦ by
      have hvary : name ≠ HeaderName.vary := by
        rintro rfl
        exact hname List.mem_cons_self
      exact (Multimap.getAll_insert _ _ _ _).trans (if_neg hvary)
    have hencoding : DecompressionLayer.encoding
        (Multimap.insert response.headers HeaderName.vary varyAcceptEncoding) =
          DecompressionLayer.encoding response.headers := by
      rw [DecompressionLayer.encoding, DecompressionLayer.encoding, Multimap.get, Multimap.get,
        Multimap.getAll_insert, if_neg (by decide)]
    refine View.ext rfl (funext fun name ↦ ?_) rfl ?_ rfl
    · show (if name ∈ codingHeaders then [] else _) = if name ∈ codingHeaders then [] else _
      split
      · rfl
      · next hname => exact hfields name hname
    · show Except.map (decodeBy _) _ = Except.map (decodeBy _) _
      refine congrArg (Except.map · _) (funext fun bytes ↦ ?_)
      rw [decodeBy, decodeBy, hencoding]

omit [DecoderLib] in
/-- A response that gets a coding has its headers, but for those about the coding. -/
theorem getAll_answer_of_not_mem {name : HeaderName} (h : name ∉ codingHeaders) :
    Multimap.getAll (self.answer response req).headers name =
      Multimap.getAll response.headers name := by
  rw [codingHeaders, List.mem_cons, List.mem_cons, List.mem_singleton, not_or, not_or] at h
  obtain ⟨hvary, hlength, hencoding⟩ := h
  rw [headers_answer _ _ _ hvary]
  rcases self.coding response req with - | encoding
  · rfl
  · exact (if_neg hlength).trans (if_neg hencoding)

/-- The client decodes the content of an encoded response to what it was, trailers apart. -/
theorem content_answer [LawfulCodecs] {encoding : Encoding}
    (h : self.coding response req = some encoding)
    (htrailers : Body.trailers response.body.polls = []) :
    (self.answer response req).view.content = response.view.content := by
  have hcompressible : self.compressible req.method response :=
    (Option.ite_none_right_eq_some.1 h).1
  have hplain : DecompressionLayer.encoding response.headers = none := by
    rw [DecompressionLayer.encoding, Multimap.get,
      getAll_contentEncoding_of_compressible hcompressible]
    rfl
  have hcoded : Multimap.getAll (self.answer response req).headers HeaderName.contentEncoding =
      [encoding.headerValue] := by
    rw [headers_answer _ _ _ (by decide), h]
    exact (if_neg (by decide)).trans (if_pos rfl)
  obtain ⟨name, hname, hdecompress⟩ := DecompressionLayer.encoding_of_getAll hcoded
  show ((self.answer response req).body.toBytes.mapError BoxError.toText).map
      (decodeBy (self.answer response req).headers) =
    (response.body.toBytes.mapError BoxError.toText).map (decodeBy response.headers)
  have hstream := bytes_bodyByteStream htrailers
  rw [body_answer, h]
  show ((Body.fromStream (EncoderLib.encode encoding self.level
    (bodyByteStream response.body.polls))).toBytes.mapError _).map _ = _
  rw [Body.toBytes_fromStream, Body.toBytes]
  rcases hcollect : Body.collect response.body.polls with e | data
  · rw [hcollect] at hstream
    rw [LawfulCodecs.encode_error encoding self.level hstream]
    rfl
  · rw [hcollect] at hstream
    obtain ⟨encoded, hencoded, hdecode⟩ :=
      LawfulCodecs.exists_encoded encoding self.level hstream
    rw [hencoded]
    show Except.ok (decodeBy _ encoded) = Except.ok (decodeBy _ data)
    rw [decodeBy, decodeBy, hname, hplain]
    show Except.ok (DecompressionLayer.decompress name encoded) = _
    rw [hdecompress, hdecode]

/-- **When compression is transparent to a client**: the response gets no coding, or has no
trailers. The encoder makes one stream of the data, and frames that are no data are not handed on.
-/
theorem transparent_iff [LawfulCodecs] (self : CompressionLayer)
    (response : Response H E (Body H)) (req : Request H E (Body H)) :
    (self.answer response req).view = response.view ↔
      (self.coding response req ≠ none → Body.trailers response.body.polls = []) := by
  rcases hcoding : self.coding response req with - | encoding
  · exact iff_of_true (view_answer_of_coding_eq_none hcoding) fun hne ↦ absurd rfl hne
  · have htrailers : (self.answer response req).view.trailers = [] := by
      show Body.trailers (self.answer response req).body.polls = []
      rw [body_answer, hcoding]
      exact Body.trailers_fromStream _
    refine ⟨fun h _ ↦ ?_, fun h ↦ ?_⟩
    · rw [h] at htrailers
      exact htrailers
    · have hnil := h nofun
      obtain ⟨hcompressible, hencoding⟩ := Option.ite_none_right_eq_some.1 hcoding
      have hanswer := answer_of_compressible hcompressible hencoding
      refine View.ext ?_ (funext fun name ↦ ?_) ?_ (content_answer hcoding hnil)
        (htrailers.trans hnil.symm)
      · rw [hanswer]
        rfl
      · show (if name ∈ codingHeaders then [] else _) = if name ∈ codingHeaders then [] else _
        split
        · rfl
        · next hname => exact getAll_answer_of_not_mem hname
      · rw [hanswer]
        rfl

end Transparent

section Trailers

attribute [local instance] thousandths pairEncoder

/-- The decoder of the encoder for two bytes. -/
local instance pairDecoder : DecoderLib where
  gzip data := some (Equiv.swap twoBytes (twoBytesIn .gzip) data)
  brotli data := some (Equiv.swap twoBytes (twoBytesIn .br) data)
  zstd data := some (Equiv.swap twoBytes (twoBytesIn .zstd) data)
  deflate data := some (Equiv.swap twoBytes (twoBytesIn .deflate) data)

private instance lawfulCodecs_pair : LawfulCodecs where
  exists_encoded encoding level stream data h := by
    refine ⟨Equiv.swap twoBytes (twoBytesIn encoding) data, ?_, ?_⟩
    · show ByteStream.bytes (match stream.bytes with
        | .ok data => [.ok (Equiv.swap twoBytes (twoBytesIn encoding) data)]
        | .error e => [.error e]) = _
      rw [h]
      exact congrArg Except.ok (List.append_nil _)
    · have hdecode : ∀ bytes, encoding.decode bytes =
          some (Equiv.swap twoBytes (twoBytesIn encoding) bytes) := by
        intro bytes
        cases encoding <;> rfl
      rw [hdecode, Equiv.swap_apply_self]
  encode_error encoding level stream e h := by
    show ByteStream.bytes (match stream.bytes with
      | .ok data => [.ok (Equiv.swap twoBytes (twoBytesIn encoding) data)]
      | .error e => [.error e]) = _
    rw [h]
    rfl

/-- A page with trailers behind its two bytes. -/
def pageWithTrailers : Response (AssocList HeaderName HeaderValue) (Option Unit)
    (Body (AssocList HeaderName HeaderValue)) :=
  { taggedPage with
    body := ⟨[.ok (.data [104]), .ok (.data [105]), .ok (.trailers ⟨[]⟩)], {}⟩ }

/-- A client that accepts a coding is sent the page in it and gets the page without trailers as it
is, and the other one without them. -/
theorem taggedPage_transparent :
    let layer : CompressionLayer := { minSize := 0 }
    let req := pageRequest (some .gzip)
    (layer.answer taggedPage req).body.toBytes = .ok (twoBytesIn .gzip) ∧
      (layer.answer taggedPage req).view = taggedPage.view ∧
      (layer.answer pageWithTrailers req).view ≠ pageWithTrailers.view := by
  refine ⟨rfl, (transparent_iff _ _ _).2 fun _ ↦ rfl, fun h ↦ ?_⟩
  exact absurd ((transparent_iff _ _ _).1 h (by decide)) nofun

end Trailers

end CompressionLayer
