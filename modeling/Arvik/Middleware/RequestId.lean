import Arvik.Middleware.Csrf

/-!
# Request identifiers

One layer gives every request an identifier, in an extension and in a header, and repeats it in the
response; the identifier of the client is kept if there is one. Another layer only repeats what the
client sent. Whatever a handler writes into the header of the response is replaced.

That an identifier can be sent is not checked by the type: it is a text, and a header value may
refuse it. The layer is right not to ask, since the text came from a header line or is a formatted
UUID, and both can be sent again (`RequestIdLayer.exists_line`). A request that went through the
layer goes by one identifier in both places (`Request.Carries`), which is the invariant that the
logging layer, and a stack of both, are analysed with.
-/

/-- The identifier of a request. -/
structure RequestId where
  text : Str
  deriving DecidableEq

namespace RequestId

def new (uuid : Uuid) : RequestId := ⟨uuid.text⟩

def fromString (id : Str) : RequestId := ⟨id⟩

end RequestId

variable {H E B : Type} [Multimap H HeaderName HeaderValue]

/-- The request with a header replaced. -/
def Request.insertHeader (req : Request H E B) (name : HeaderName) (value : HeaderValue) :
    Request H E B :=
  { req with inner := { req.inner with headers := Multimap.insert req.headers name value } }

/-- The response with a header replaced, if there is a value for it. -/
def Response.insertHeaderIf (response : Response H E B) (name : HeaderName)
    (value : Option HeaderValue) : Response H E B :=
  match value with
  | some value => { response with headers := Multimap.insert response.headers name value }
  | none => response

/-- The first line of a header, as a text. -/
def Request.headerText (req : Request H E B) (name : HeaderName) : Option Str :=
  (Multimap.get req.headers name).bind HeaderValue.toStr

/-- A request with its identifier, in the extension and, if it can be sent, in a header. -/
def Request.identified [Extensions E] [Extensions.Slot E RequestId] (req : Request H E B)
    (name : HeaderName) (requestId : RequestId) : Request H E B :=
  let req := req.insertExtension requestId
  match HeaderValue.fromStr requestId.text with
  | some value => req.insertHeader name value
  | none => req

/-! ### The layers -/

section Layers

variable [Extensions E] [Extensions.Slot E RequestId] {m : Type → Type} [Monad m]

/-- The identifier of a request: the first line of the client, if it is a text. -/
def RequestIdLayer.requestId (uuid : Uuid) (req : Request H E B) : RequestId :=
  ((req.headerText HeaderName.xRequestId).map .fromString).getD (.new uuid)

/-- A request through the layer that identifies requests. -/
def RequestIdLayer.call (uuid : Uuid) (inner : Request H E B → m (Response H E B))
    (req : Request H E B) : m (Response H E B) := do
  let requestId := RequestIdLayer.requestId uuid req
  let response ← inner (req.identified HeaderName.xRequestId requestId)
  pure (response.insertHeaderIf HeaderName.xRequestId (HeaderValue.fromStr requestId.text))

/-- A request through the layer that repeats what the client sent. -/
def PropagateRequestIdLayer.call (inner : Request H E B → m (Response H E B))
    (req : Request H E B) : m (Response H E B) := do
  let response ← inner req
  pure (response.insertHeaderIf HeaderName.xRequestId
    (Multimap.get req.headers HeaderName.xRequestId))

end Layers

/-! ### What is found in a request -/

section Found

variable [Extensions E] [Extensions.Slot E RequestId]

omit [Extensions E] [Extensions.Slot E RequestId] in
@[simp]
theorem Request.getAll_insertHeader (req : Request H E B) (name other : HeaderName)
    (value : HeaderValue) : Multimap.getAll (req.insertHeader name value).headers other =
      if other = name then [value] else Multimap.getAll req.headers other :=
  Multimap.getAll_insert _ _ _ _

/-- A request that goes by one identifier: it is in the extension, and the only line of the
header. -/
structure Request.Carries (req : Request H E B) (line : HeaderValue) (id : Str) : Prop where
  extension : Extensions.Slot.get req.extensions = some (RequestId.mk id)
  lines : Multimap.getAll req.headers HeaderName.xRequestId = [line]
  text : line.toStr = some id

theorem Request.Carries.get {req : Request H E B} {line : HeaderValue} {id : Str}
    (h : req.Carries line id) : Multimap.get req.headers HeaderName.xRequestId = some line := by
  rw [Multimap.get, h.lines, List.head?_cons]

theorem Request.Carries.headerText {req : Request H E B} {line : HeaderValue} {id : Str}
    (h : req.Carries line id) : req.headerText HeaderName.xRequestId = some id := by
  rw [Request.headerText, h.get, Option.bind_some, h.text]

omit [Multimap H HeaderName HeaderValue] [Extensions E] [Extensions.Slot E RequestId] in
/-- A line that can be read is what its text is written as. -/
theorem HeaderValue.fromStr_of_toStr {line : HeaderValue} {id : Str} (h : line.toStr = some id) :
    HeaderValue.fromStr id = some line := by
  have hbytes : Text.utf8 id = line.bytes := HeaderValue.utf8_of_toStr h
  rw [HeaderValue.fromStr, HeaderValue.fromBytes, hbytes, dif_pos line.valid]

/-- An identified request goes by its identifier. -/
theorem Request.carries_identified (req : Request H E B) {line : HeaderValue} {id : Str}
    (h : line.toStr = some id) :
    (req.identified HeaderName.xRequestId ⟨id⟩).Carries line id := by
  have heq : req.identified HeaderName.xRequestId ⟨id⟩ =
      (req.insertExtension (RequestId.mk id)).insertHeader HeaderName.xRequestId line := by
    rw [Request.identified, HeaderValue.fromStr_of_toStr h]
  rw [heq]
  refine ⟨Extensions.Slot.get_insert _ _, ?_, h⟩
  rw [Request.getAll_insertHeader, if_pos rfl]

/-- A generated identifier can be sent. -/
theorem Uuid.exists_line (uuid : Uuid) : ∃ line : HeaderValue, line.toStr = some uuid.text := by
  have hvisible : ∀ c ∈ uuid.text, 32 ≤ c.toNat ∧ c.toNat < 127 := by
    intro c hc
    rcases uuid.hyphenated c hc with rfl | hhex
    · decide
    · simp only [Radix.isLowerHexDigit, Bool.or_eq_true, Bool.and_eq_true,
        decide_eq_true_eq] at hhex
      omega
  obtain ⟨line, -, htext⟩ := HeaderValue.fromStr_visible hvisible
  exact ⟨line, htext⟩

omit [Extensions E] [Extensions.Slot E RequestId] in
/-- What a request is identified by can be sent. -/
theorem RequestIdLayer.exists_line (uuid : Uuid) (req : Request H E B) :
    ∃ line : HeaderValue, line.toStr = some (RequestIdLayer.requestId uuid req).text := by
  rw [RequestIdLayer.requestId]
  rcases htext : req.headerText HeaderName.xRequestId with - | id
  · exact uuid.exists_line
  · obtain ⟨line, -, hline⟩ := Option.bind_eq_some_iff.1 htext
    exact ⟨line, hline⟩

end Found
