import Arvik.Middleware.Compression
import Arvik.Static.Embedded
import Mathlib.Logic.Equiv.Basic

/-!
# What caches and readers of parts see of compression

A response leaves the layer with the coding that was negotiated if it is compressible, and else as
it came, up to its `Vary` header (`headers_answer`, `body_answer`). Whether it is compressible does
not depend on what the request accepts, and what is negotiated on nothing else; so the two
conditions can be told apart in what follows.

## Caches

A cache that is asked twice, by requests that differ in `Accept-Encoding` at most, must not take one
answer for the other (`CachedApart`). The layer does not look at the entity tag of a response, and
an answer without a coding does not vary on anything by its doing. So two requests may get two
codings under one strong tag, and `cachedApart_iff` says that nothing else goes wrong.

## Parts

The layer does not look at `Content-Range` either. A part of a representation is compressed like a
whole one (`keepsPart_iff`), and its range then counts bytes that the client does not get.
-/

namespace CompressionLayer

variable {H E : Type} [Multimap H HeaderName HeaderValue]

section Answer

variable [QualityLib] [EncoderLib]

/-- What the layer makes of an inner response. -/
def answer (self : CompressionLayer) (response : Response H E (Body H))
    (req : Request H E (Body H)) : Response H E (Body H) :=
  (self.call (m := Id) (fun _ ↦ pure response) req).run

omit [QualityLib] [EncoderLib] in
/-- The response is compressed if a coding was negotiated: it has none yet, is of a type worth
compressing and not known to be small, and the request is not `HEAD`. -/
def compressible (self : CompressionLayer) (method : Method) (response : Response H E (Body H)) :
    Bool :=
  !Multimap.containsKey response.headers HeaderName.contentEncoding && !decide (method = .head) &&
    shouldCompress response.headers && !response.body.sizeHint.upper.any (· < self.minSize)

omit [EncoderLib] in
/-- The coding in which the response leaves the layer, if the layer gives it one. -/
def coding (self : CompressionLayer) (response : Response H E (Body H))
    (req : Request H E (Body H)) : Option Encoding :=
  if self.compressible req.method response then self.negotiated req.headers else none

/-! ### The answer -/

variable {self : CompressionLayer} {response : Response H E (Body H)}
  {req : Request H E (Body H)}

theorem answer_eq (self : CompressionLayer) (response : Response H E (Body H))
    (req : Request H E (Body H)) :
    self.answer response req =
      self.outgoing (self.negotiated req.headers) (decide (req.method = .head)) response :=
  rfl

/-- A compressible response is compressed with the coding that was negotiated. -/
theorem answer_of_compressible {encoding : Encoding}
    (h : self.compressible req.method response)
    (hencoding : self.negotiated req.headers = some encoding) :
    self.answer response req =
      { response with
        headers := Multimap.remove (Multimap.insert (Multimap.insert response.headers
          HeaderName.contentEncoding encoding.headerValue) HeaderName.vary varyAcceptEncoding)
          HeaderName.contentLength
        body := Body.fromStream
          (EncoderLib.encode encoding self.level (bodyByteStream response.body.polls)) } := by
  simp only [compressible, Bool.and_eq_true, Bool.not_eq_true'] at h
  obtain ⟨⟨⟨hencoded, hhead⟩, htype⟩, hsize⟩ := h
  rw [answer_eq, hencoding, outgoing, if_neg (Bool.eq_false_iff.1 hencoded),
    if_neg (Bool.eq_false_iff.1 hhead), if_neg (by rw [htype]; exact Bool.false_ne_true),
    compressResponse, if_neg (Bool.eq_false_iff.1 hsize)]

/-- Any other response keeps everything but what it varies on. -/
theorem answer_of_coding_eq_none (h : self.coding response req = none) :
    self.answer response req = response ∨
      self.answer response req =
        { response with
          headers := Multimap.insert response.headers HeaderName.vary varyAcceptEncoding } := by
  by_cases hleaves : self.leaves req response
  · exact .inl (outgoing_of_leaves hleaves)
  · have hleaves' := Bool.eq_false_iff.2 hleaves
    obtain ⟨encoding, hanswer⟩ := exists_outgoing_of_not_leaves hleaves'
    simp only [leaves, Bool.or_eq_false_iff, Bool.not_eq_false'] at hleaves'
    obtain ⟨⟨⟨hencoding, hencoded⟩, hhead⟩, htype⟩ := hleaves'
    have hsmall : response.body.sizeHint.upper.any (· < self.minSize) = true := by
      by_contra hlarge
      have hcompressible : self.compressible req.method response := by
        simp only [compressible, hencoded, hhead, htype, Bool.eq_false_iff.2 hlarge, Bool.not_false,
          Bool.and_self]
      rw [coding, if_pos hcompressible] at h
      rw [h] at hencoding
      exact absurd hencoding (by decide)
    refine .inr (hanswer.trans ?_)
    rw [compressResponse, if_pos hsmall]

/-- The headers of the answer, `Vary` apart. -/
theorem headers_answer (self : CompressionLayer) (response : Response H E (Body H))
    (req : Request H E (Body H)) {name : HeaderName} (hvary : name ≠ HeaderName.vary) :
    Multimap.getAll (self.answer response req).headers name =
      match self.coding response req with
      | none => Multimap.getAll response.headers name
      | some encoding =>
        if name = HeaderName.contentLength then []
        else if name = HeaderName.contentEncoding then [encoding.headerValue]
        else Multimap.getAll response.headers name := by
  rcases hcoding : self.coding response req with - | encoding
  · rcases answer_of_coding_eq_none hcoding with h | h
    · rw [h]
    · rw [h]
      exact (Multimap.getAll_insert _ _ _ _).trans (if_neg hvary)
  · obtain ⟨hcompressible, hencoding⟩ := Option.ite_none_right_eq_some.1 hcoding
    rw [answer_of_compressible hcompressible hencoding]
    simp only [Multimap.getAll_remove, Multimap.getAll_insert, if_neg hvary]

/-- The body of the answer. -/
theorem body_answer (self : CompressionLayer) (response : Response H E (Body H))
    (req : Request H E (Body H)) :
    (self.answer response req).body = match self.coding response req with
      | none => response.body
      | some encoding => Body.fromStream
          (EncoderLib.encode encoding self.level (bodyByteStream response.body.polls)) := by
  rcases hcoding : self.coding response req with - | encoding
  · rcases answer_of_coding_eq_none hcoding with h | h
    · rw [h]
    · rw [h]
  · obtain ⟨hcompressible, hencoding⟩ := Option.ite_none_right_eq_some.1 hcoding
    rw [answer_of_compressible hcompressible hencoding]

/-- A compressed response varies on `Accept-Encoding`. -/
theorem listed_vary_answer_of_coding {encoding : Encoding}
    (h : self.coding response req = some encoding) :
    FieldList.listed (self.answer response req).headers HeaderName.vary =
      [HeaderName.acceptEncoding] := by
  obtain ⟨hcompressible, hencoding⟩ := Option.ite_none_right_eq_some.1 h
  rw [answer_of_compressible hcompressible hencoding]
  show FieldList.listed (Multimap.remove (Multimap.insert _ _ _) _) _ = _
  rw [FieldList.listed_remove_of_ne _ (by decide), FieldList.listed_insert, if_pos rfl,
    names_varyAcceptEncoding]

theorem answer_of_negotiated_eq_none (h : self.negotiated req.headers = none) :
    self.answer response req = response := by
  rw [answer_eq, h]
  rfl

end Answer

/-! ### Two requests to a cache -/

/-- Requests that differ in what they accept at most, so that nothing else could tell their answers
apart. -/
structure DifferInAccept (req req' : Request H E (Body H)) : Prop where
  method : req.method = req'.method
  uri : req.uri = req'.uri
  headers : ∀ name ≠ HeaderName.acceptEncoding,
    Multimap.getAll req.headers name = Multimap.getAll req'.headers name
  httpExtensions : req.inner.extensions = req'.inner.extensions
  body : req.body = req'.body
  version : req.version = req'.version
  extensions : req.extensions = req'.extensions

/-- A strong entity tag. -/
def isStrong (etag : HeaderValue) : Bool :=
  !(Text.utf8 "W/".toList).isPrefixOf etag.bytes

/-- A cache can tell two responses apart: if they have different codings, both vary on
`Accept-Encoding`, and they share no strong entity tag. -/
def CachedApart (response response' : Response H E (Body H)) : Prop :=
  Multimap.getAll response.headers HeaderName.contentEncoding ≠
      Multimap.getAll response'.headers HeaderName.contentEncoding →
    HeaderName.acceptEncoding ∈ FieldList.listed response.headers HeaderName.vary ∧
      HeaderName.acceptEncoding ∈ FieldList.listed response'.headers HeaderName.vary ∧
        ∀ etag ∈ Multimap.getAll response.headers HeaderName.etag, isStrong etag →
          etag ∉ Multimap.getAll response'.headers HeaderName.etag

instance (response response' : Response H E (Body H)) :
    Decidable (CachedApart response response') :=
  inferInstanceAs (Decidable (_ → _))

section Cache

variable [QualityLib] [EncoderLib] {self : CompressionLayer} {response : Response H E (Body H)}
  {req req' : Request H E (Body H)}

/-- The layer leaves entity tags alone. -/
theorem getAll_etag_answer (self : CompressionLayer) (response : Response H E (Body H))
    (req : Request H E (Body H)) :
    Multimap.getAll (self.answer response req).headers HeaderName.etag =
      Multimap.getAll response.headers HeaderName.etag := by
  rw [headers_answer _ _ _ (by decide)]
  rcases self.coding response req with - | encoding
  · rfl
  · exact (if_neg (by decide)).trans (if_neg (by decide))

omit [QualityLib] [EncoderLib] in
theorem getAll_contentEncoding_of_compressible (h : self.compressible req.method response) :
    Multimap.getAll response.headers HeaderName.contentEncoding = [] := by
  simp only [compressible, Bool.and_eq_true, Bool.not_eq_true'] at h
  simpa [Multimap.containsKey] using h.1.1.1

/-- The coding of an answer to a request for a compressible response is the one negotiated. -/
theorem getAll_contentEncoding_answer (h : self.compressible req.method response) :
    Multimap.getAll (self.answer response req).headers HeaderName.contentEncoding =
      ((self.negotiated req.headers).map Encoding.headerValue).toList := by
  have hcoding : self.coding response req = self.negotiated req.headers := if_pos h
  rw [headers_answer _ _ _ (by decide), hcoding]
  rcases self.negotiated req.headers with - | encoding
  · exact getAll_contentEncoding_of_compressible h
  · exact (if_neg (by decide)).trans (if_pos rfl)

omit [QualityLib] [EncoderLib] in
/-- The encoders have codings of their own. -/
theorem headerValue_injective : Function.Injective Encoding.headerValue := by
  intro encoding encoding' h
  cases encoding <;> cases encoding' <;> first | rfl | exact absurd h (by decide)

/-- What an answer to a request for a compressible response varies on. -/
theorem mem_listed_vary_answer (h : self.compressible req.method response) :
    HeaderName.acceptEncoding ∈
        FieldList.listed (self.answer response req).headers HeaderName.vary ↔
      (self.negotiated req.headers = none →
        HeaderName.acceptEncoding ∈ FieldList.listed response.headers HeaderName.vary) := by
  rcases hencoding : self.negotiated req.headers with - | encoding
  · rw [answer_of_negotiated_eq_none hencoding]
    exact ⟨fun h _ ↦ h, fun h ↦ h rfl⟩
  · rw [listed_vary_answer_of_coding ((if_pos h).trans hencoding)]
    exact iff_of_true List.mem_cons_self nofun

/-- **When a cache can tell two answers apart**: the same coding was negotiated, or the response is
not compressible, or the response has no strong entity tag and, where one of the requests gets it
as it is, varies on `Accept-Encoding` already. -/
theorem cachedApart_iff (self : CompressionLayer) (response : Response H E (Body H))
    {req req' : Request H E (Body H)} (hdiffer : DifferInAccept req req') :
    CachedApart (self.answer response req) (self.answer response req') ↔
      self.negotiated req.headers = self.negotiated req'.headers ∨
        self.compressible req.method response = false ∨
          ((self.negotiated req.headers = none ∨ self.negotiated req'.headers = none →
              HeaderName.acceptEncoding ∈ FieldList.listed response.headers HeaderName.vary) ∧
            ∀ etag ∈ Multimap.getAll response.headers HeaderName.etag, isStrong etag = false) := by
  by_cases hcompressible : self.compressible req.method response
  · have hcompressible' : self.compressible req'.method response := hdiffer.method ▸ hcompressible
    have hcoding : Multimap.getAll (self.answer response req).headers HeaderName.contentEncoding =
          Multimap.getAll (self.answer response req').headers HeaderName.contentEncoding ↔
        self.negotiated req.headers = self.negotiated req'.headers := by
      rw [getAll_contentEncoding_answer hcompressible,
        getAll_contentEncoding_answer hcompressible']
      refine ⟨fun h ↦ Option.map_injective headerValue_injective ?_, fun h ↦ by rw [h]⟩
      have hhead := congrArg List.head? h
      rwa [Option.head?_toList, Option.head?_toList] at hhead
    have hetag : (∀ etag ∈ Multimap.getAll response.headers HeaderName.etag, isStrong etag →
          etag ∉ Multimap.getAll response.headers HeaderName.etag) ↔
        ∀ etag ∈ Multimap.getAll response.headers HeaderName.etag, isStrong etag = false :=
      forall₂_congr fun etag hetag ↦
        ⟨fun h ↦ Bool.eq_false_iff.2 fun hstrong ↦ h hstrong hetag,
          fun h hstrong ↦ absurd hstrong (Bool.eq_false_iff.1 h)⟩
    rw [CachedApart, ne_eq, hcoding, getAll_etag_answer, getAll_etag_answer, hetag,
      mem_listed_vary_answer hcompressible, mem_listed_vary_answer hcompressible', or_imp,
      hcompressible, and_assoc, Bool.true_eq_false, false_or, or_iff_not_imp_left]
  · have hcoding : ∀ {req}, self.compressible req.method response = false →
        self.coding response req = none := fun h ↦ if_neg (Bool.eq_false_iff.1 h)
    have hfalse := Bool.eq_false_iff.2 hcompressible
    refine iff_of_true (fun hne ↦ absurd ?_ hne) (.inr (.inl hfalse))
    rw [headers_answer _ _ _ (by decide), headers_answer _ _ _ (by decide), hcoding hfalse,
      hcoding (hdiffer.method ▸ hfalse)]

end Cache

section TaggedPage

/-- Two bytes. -/
def twoBytes : Bytes :=
  [104, 105]

/-- The two bytes as the encoders write them. -/
def twoBytesIn : Encoding → Bytes
  | .gzip => [0x1f, 0x8b, 0x08, 0, 0, 0, 0, 0, 0, 0xff, 0xcb, 0xc8, 0x04, 0x00, 0xac, 0x2a, 0x93,
      0xd8, 2, 0, 0, 0]
  | .br => [0x8b, 0x00, 0x80, 0x68, 0x69, 0x03]
  | .zstd => [0x28, 0xb5, 0x2f, 0xfd, 0x00, 0x58, 0x11, 0, 0, 0x68, 0x69]
  | .deflate => [0xcb, 0xc8, 0x04, 0x00]

/-- An encoder that is right about the two bytes; it exchanges them with their encoded form, so that
it can be undone whatever the data. -/
local instance pairEncoder : EncoderLib where
  encode encoding _ stream := match stream.bytes with
    | .ok data => [.ok (Equiv.swap twoBytes (twoBytesIn encoding) data)]
    | .error e => [.error e]

attribute [local instance] thousandths

/-- A page of two bytes with a strong entity tag. -/
def taggedPage : Response (AssocList HeaderName HeaderValue) (Option Unit)
    (Body (AssocList HeaderName HeaderValue)) where
  status := .ok
  headers := ⟨[(HeaderName.contentType, HeaderValue.fromStatic "text/markdown"),
    (HeaderName.etag, HeaderValue.fromStatic "\"v1\"")]⟩
  extensions := none
  body := Body.fromBytes twoBytes

/-- A request, accepting a coding or not. -/
def pageRequest (coding : Option HeaderValue) : Request (AssocList HeaderName HeaderValue)
    (Option Unit) (Body (AssocList HeaderName HeaderValue)) where
  inner := ⟨.get, { path := ['/'] },
    ⟨(coding.map fun value ↦ (HeaderName.acceptEncoding, value)).toList⟩, none, Body.empty, .http11⟩
  extensions := none

private theorem differInAccept_pageRequest (coding coding' : Option HeaderValue) :
    DifferInAccept (pageRequest coding) (pageRequest coding') where
  method := rfl
  uri := rfl
  headers name hname := by
    have hnone : ∀ coding : Option HeaderValue,
        Multimap.getAll (pageRequest coding).headers name = [] := fun coding ↦
      Multimap.valuesFor_map_toList_of_ne hname.symm coding
    rw [hnone, hnone]
  httpExtensions := rfl
  body := rfl
  version := rfl
  extensions := rfl

/-- The page with a weak entity tag, and varying on what it is compressed by. -/
def weaklyTaggedPage : Response (AssocList HeaderName HeaderValue) (Option Unit)
    (Body (AssocList HeaderName HeaderValue)) :=
  { taggedPage with
    headers := ⟨[(HeaderName.contentType, HeaderValue.fromStatic "text/markdown"),
      (HeaderName.vary, varyAcceptEncoding),
      (HeaderName.etag, HeaderValue.fromStatic "W/\"v1\"")]⟩ }

/-- The page leaves the layer compressed for one of the requests only, and a cache can tell. -/
theorem weaklyTaggedPage_cachedApart :
    let answer := ({ minSize := 0 } : CompressionLayer).answer weaklyTaggedPage
    (answer (pageRequest (some .gzip))).body.toBytes = .ok (twoBytesIn .gzip) ∧
      (answer (pageRequest none)).body.toBytes = .ok twoBytes ∧
        CachedApart (answer (pageRequest (some .gzip))) (answer (pageRequest none)) :=
  ⟨rfl, rfl, (cachedApart_iff _ _ (differInAccept_pageRequest _ _)).2 (.inr (.inr (by decide)))⟩

/-- Where the page is compressed, the tag stays the same, and the page as it is varies on
nothing. -/
theorem not_taggedPage_cachedApart :
    DifferInAccept (pageRequest (some .gzip)) (pageRequest none) ∧
      ¬ CachedApart (({ minSize := 0 } : CompressionLayer).answer taggedPage
          (pageRequest (some .gzip)))
        (({ minSize := 0 } : CompressionLayer).answer taggedPage (pageRequest none)) :=
  ⟨differInAccept_pageRequest _ _, by decide⟩

end TaggedPage

/-! ### Parts -/

section Parts

variable [QualityLib] [EncoderLib]

/-- A response that carries `Content-Range` leaves with the bytes, the length, the range and the
coding it came with. -/
def KeepsPart (self : CompressionLayer) (response : Response H E (Body H))
    (req : Request H E (Body H)) : Prop :=
  Multimap.containsKey response.headers HeaderName.contentRange →
    (self.answer response req).body.toBytes = response.body.toBytes ∧
      ∀ name ∈ [HeaderName.contentLength, HeaderName.contentRange, HeaderName.contentEncoding],
        Multimap.getAll (self.answer response req).headers name =
          Multimap.getAll response.headers name

/-- **When a part is kept**: no coding was negotiated, or the response is not compressible. That the
response is a part of something is not looked at. -/
theorem keepsPart_iff (self : CompressionLayer) (response : Response H E (Body H))
    (req : Request H E (Body H)) :
    self.KeepsPart response req ↔
      (Multimap.containsKey response.headers HeaderName.contentRange →
        self.negotiated req.headers = none ∨ self.compressible req.method response = false) := by
  refine imp_congr_right fun _ ↦ ?_
  rcases hcoding : self.coding response req with - | encoding
  · have hkept : self.negotiated req.headers = none ∨
        self.compressible req.method response = false := by
      by_contra hnot
      obtain ⟨hencoding, hcompressible⟩ := not_or.1 hnot
      exact hencoding ((if_pos (eq_true_of_ne_false hcompressible)).symm.trans hcoding)
    refine iff_of_true ⟨?_, fun name hname ↦ ?_⟩ hkept
    · rw [body_answer, hcoding]
    · have hvary : name ≠ HeaderName.vary := (by decide : ∀ name ∈ [HeaderName.contentLength,
        HeaderName.contentRange, HeaderName.contentEncoding], name ≠ HeaderName.vary) name hname
      rw [headers_answer _ _ _ hvary, hcoding]
  · obtain ⟨hcompressible, hencoding⟩ := Option.ite_none_right_eq_some.1 hcoding
    refine iff_of_false (fun h ↦ ?_) ?_
    · have hkept := h.2 HeaderName.contentEncoding (by simp)
      rw [getAll_contentEncoding_answer hcompressible, hencoding,
        getAll_contentEncoding_of_compressible hcompressible] at hkept
      exact List.cons_ne_nil _ _ hkept
    · rw [hencoding, hcompressible]
      exact fun h ↦ h.elim nofun nofun

end Parts

section StaticPart

attribute [local instance] thousandths identityEncoder Static.noDates

/-- A request for the first two bytes, accepting a coding. -/
def partRequest : Request (AssocList HeaderName HeaderValue) (Option Unit)
    (Body (AssocList HeaderName HeaderValue)) where
  inner := ⟨.get, { path := ['/'] }, ⟨[(HeaderName.range, HeaderValue.fromStatic "bytes=0-1"),
    (HeaderName.acceptEncoding, HeaderValue.gzip)]⟩, none, Body.empty, .http11⟩
  extensions := none

/-- An embedded text of four bytes. -/
def textAsset : Static.Asset (Body (AssocList HeaderName HeaderValue)) :=
  Static.embeddedAsset ⟨[97, 98, 99, 100], Vector.replicate 32 0, none⟩
    ⟨none, HeaderValue.fromStatic "\"v1\""⟩ (HeaderValue.fromStatic "text/markdown") none false

/-- The part of the text that is asked for leaves the layer compressed. -/
theorem not_keepsPart_textAsset :
    ∃ response, Static.serveAsset textAsset partRequest false none = some response ∧
      response.status = .partialContent ∧
        ¬ ({ minSize := 0 } : CompressionLayer).KeepsPart response partRequest := by
  refine ⟨_, rfl, by decide, fun h ↦ ?_⟩
  exact absurd ((h (by decide)).2 HeaderName.contentEncoding (by decide)) (by decide)

end StaticPart

end CompressionLayer
