import Arvik.Core.Body

/-!
# Body transformation

The layer collects the request body, transforms it, and passes it on as a single buffer. When the
body cannot be collected, the transform is given no bytes at all, and the request is passed on all
the same.

The second half is what matters to others: an error of the body does not get past this layer. A
limit around it that reports through the body is not seen by whoever reads inside, who finds an
empty body instead. `BodyConsumers` counts the layer among those who consume a body, and has the
consequences.
-/

variable {H E : Type} [Multimap H HeaderName HeaderValue]

/-- A layer transforming request bodies. -/
structure MapRequestBodyLayer where
  f : Bytes → Bytes

namespace MapRequestBodyLayer

/-- The request passed on, given what became of the body. -/
def mapped (self : MapRequestBodyLayer) (parts : RequestParts H E)
    (collected : Except BoxError Bytes) : Request H E (Body H) :=
  let bytes := match collected with
    | .ok bytes => bytes
    | .error _ => []
  let transformed := self.f bytes
  let headers :=
    if Multimap.containsKey parts.headers HeaderName.contentLength then
      Multimap.insert parts.headers HeaderName.contentLength
        (HeaderValue.fromNat transformed.length)
    else parts.headers
  Request.fromRequestParts { parts with headers } (Body.fromBytes transformed)

/-- A request through the layer. -/
def call {m : Type → Type} (self : MapRequestBodyLayer)
    (inner : Request H E (Body H) → m (Response H E (Body H))) (req : Request H E (Body H)) :
    m (Response H E (Body H)) :=
  let (parts, body) := req.intoRequestParts
  inner (self.mapped parts body.toBytes)

end MapRequestBodyLayer
