import Arvik.Core.Body
import Arvik.Core.FieldList

/-!
# Cross-origin resource sharing

`CorsLayer` answers preflight requests itself and adds the `Access-Control-*` headers to the
responses of the inner service. What the headers say is a function of the configuration, and the
values that do not depend on the request are rendered once, when a configuration is built.

## The builder

A `CorsLayer` carries the two facts its builder maintains: the pre-rendered values belong to the
current fields (`CorsConfig.Coherent`), and credentials are not combined with wildcarded or
mirrored origins. Every builder call goes through `mutate`, which renders anew and panics where the
second fact would fail; a panic is `none`. So the facts hold after any history of calls, in whatever
order the origins are set and credentials enabled, and a clone that shares an older configuration
keeps one of which they hold as well.

## The answers

A response has three forms: a preflight answered by the layer, a response of the inner service with
headers added, and one passed on as it is. What a header has in each of them is computed once
(`getAll_call`), for all names but `Vary`; the proofs of safety read it for two names.

The check looks at the kind of the origin setting only. An allowlist may hold the value `*`, and
then a request whose origin is `*` is answered with the wildcard and with credentials:
`build_safe_iff` says that there is no other exception.
-/

/-- The allowed origins. -/
inductive AllowOrigin
  /-- Respond with `*`. -/
  | any
  /-- Respond with the origin if it is on the list. -/
  | list (origins : List HeaderValue)
  /-- Respond with the origin of the request. -/
  | mirror
  deriving DecidableEq

/-- The allowed methods. -/
inductive AllowMethods
  | any
  | list (methods : List Method)
  deriving DecidableEq

/-- The allowed request headers. -/
inductive AllowHeaders
  | any
  /-- Respond with the headers the preflight asks for. -/
  | mirror
  | list (names : List HeaderName)
  deriving DecidableEq

/-- A configuration, with the header values derived from it. -/
structure CorsConfig where
  allowOrigins : AllowOrigin
  allowMethods : AllowMethods
  allowHeaders : AllowHeaders
  exposeHeaders : List HeaderName
  allowCredentials : Bool
  maxAgeSecs : Option ℕ
  methodsHv : HeaderValue
  allowHeadersListHv : Option HeaderValue
  exposeHv : Option HeaderValue
  maxAgeHv : Option HeaderValue

/-! ### Rendering -/

/-- Texts joined by commas, as a header value. -/
def HeaderValue.joined (texts : List Str) : Option HeaderValue :=
  HeaderValue.fromStr (", ".toList.intercalate texts)

/-- The value of `Access-Control-Allow-Methods`. -/
def AllowMethods.rendered : AllowMethods → HeaderValue
  | any => HeaderValue.fromStatic "GET, HEAD, POST, PUT, DELETE, PATCH, OPTIONS"
  | list methods =>
    (HeaderValue.joined (methods.map Method.asStr)).getD (HeaderValue.fromStatic "GET")

/-- A nonempty list of names as one value. -/
def renderedNames (names : List HeaderName) : Option HeaderValue :=
  if names.isEmpty then none else HeaderValue.joined (names.map HeaderName.text)

/-- The value of `Access-Control-Allow-Headers` for a list of names. -/
def AllowHeaders.rendered : AllowHeaders → Option HeaderValue
  | list names => renderedNames names
  | _ => none

namespace CorsConfig

/-- A configuration from its fields, its values rendered. -/
def deriveFrom (allowOrigins : AllowOrigin) (allowMethods : AllowMethods)
    (allowHeaders : AllowHeaders) (exposeHeaders : List HeaderName) (allowCredentials : Bool)
    (maxAgeSecs : Option ℕ) : CorsConfig where
  allowOrigins := allowOrigins
  allowMethods := allowMethods
  allowHeaders := allowHeaders
  exposeHeaders := exposeHeaders
  allowCredentials := allowCredentials
  maxAgeSecs := maxAgeSecs
  methodsHv := allowMethods.rendered
  allowHeadersListHv := allowHeaders.rendered
  exposeHv := renderedNames exposeHeaders
  maxAgeHv := maxAgeSecs.bind fun age ↦ HeaderValue.fromStr (Nat.toDigits 10 age)

/-- The derived values are the rendering of the fields. The layer answers with the derived values
alone, so a field that was changed without them would not be seen. -/
structure Coherent (self : CorsConfig) : Prop where
  methods : self.methodsHv = self.allowMethods.rendered
  headers : self.allowHeadersListHv = self.allowHeaders.rendered
  expose : self.exposeHv = renderedNames self.exposeHeaders
  maxAge : self.maxAgeHv = self.maxAgeSecs.map HeaderValue.fromNat

/-- The digits of a number are always a valid value. -/
private theorem fromStr_toDigits (n : ℕ) :
    HeaderValue.fromStr (Nat.toDigits 10 n) = some (HeaderValue.fromNat n) := by
  obtain ⟨v, hv, -⟩ := HeaderValue.fromStr_visible (HeaderValue.toDigits_visible (n := n))
  have hbytes : v.bytes = (HeaderValue.fromNat n).bytes := HeaderValue.fromStr_bytes hv
  rw [hv]
  exact congrArg some (by rcases v with ⟨bytes, hvalid⟩; congr 1)

/-- **Whatever the fields, what is rendered from them belongs to them.** -/
theorem coherent_deriveFrom (allowOrigins : AllowOrigin) (allowMethods : AllowMethods)
    (allowHeaders : AllowHeaders) (exposeHeaders : List HeaderName) (allowCredentials : Bool)
    (maxAgeSecs : Option ℕ) :
    (deriveFrom allowOrigins allowMethods allowHeaders exposeHeaders allowCredentials
      maxAgeSecs).Coherent where
  methods := rfl
  headers := rfl
  expose := rfl
  maxAge := by
    show maxAgeSecs.bind _ = _
    rw [funext fromStr_toDigits]
    exact Option.map_eq_bind.symm

/-- The check against wildcarded or mirrored origins with credentials; where it fails, the builder
panics. -/
def assertCredentialsSafe (cfg : CorsConfig) : Bool :=
  !(cfg.allowCredentials && match cfg.allowOrigins with
    | .mirror | .any => true
    | .list _ => false)

end CorsConfig

/-! ### The builder -/

/-- The layer: a configuration that is coherent and passed the check. -/
structure CorsLayer where
  config : CorsConfig
  coherent : config.Coherent
  credentialsSafe : config.assertCredentialsSafe

namespace CorsLayer

/-- No allowed origins. -/
def new : CorsLayer where
  config := .deriveFrom (.list []) (.list [.get, .post, .put, .delete, .patch]) (.list []) []
    false (some 3600)
  coherent := CorsConfig.coherent_deriveFrom ..
  credentialsSafe := rfl

/-- All origins, methods and headers. -/
def permissive : CorsLayer where
  config := .deriveFrom .any .any .any [] false (some 86400)
  coherent := CorsConfig.coherent_deriveFrom ..
  credentialsSafe := rfl

/-- All origins, methods and headers, the origin and the headers mirrored. -/
def veryPermissive : CorsLayer where
  config := .deriveFrom .mirror .any .mirror [] false (some 86400)
  coherent := CorsConfig.coherent_deriveFrom ..
  credentialsSafe := rfl

/-- Change the configuration, render it anew and check it. The changed layer is a new value; clones
that share the old configuration keep it. -/
def mutate (self : CorsLayer) (f : CorsConfig → CorsConfig) : Option CorsLayer :=
  let cfg := f self.config
  let cfg := CorsConfig.deriveFrom cfg.allowOrigins cfg.allowMethods cfg.allowHeaders
    cfg.exposeHeaders cfg.allowCredentials cfg.maxAgeSecs
  if h : cfg.assertCredentialsSafe then
    some ⟨cfg, CorsConfig.coherent_deriveFrom .., h⟩
  else
    none

/-- The origins may be given as one value, an array or a vector: always a list. -/
def allowOrigin (self : CorsLayer) (origins : List HeaderValue) : Option CorsLayer :=
  self.mutate fun c ↦ { c with allowOrigins := .list origins }

def allowMethods (self : CorsLayer) (methods : List Method) : Option CorsLayer :=
  self.mutate fun c ↦ { c with allowMethods := .list methods }

def allowHeaders (self : CorsLayer) (headers : List HeaderName) : Option CorsLayer :=
  self.mutate fun c ↦ { c with allowHeaders := .list headers }

def exposeHeaders (self : CorsLayer) (headers : List HeaderName) : Option CorsLayer :=
  self.mutate fun c ↦ { c with exposeHeaders := headers }

def allowCredentials (self : CorsLayer) (allow : Bool) : Option CorsLayer :=
  self.mutate fun c ↦ { c with allowCredentials := allow }

def maxAge (self : CorsLayer) (seconds : ℕ) : Option CorsLayer :=
  self.mutate fun c ↦ { c with maxAgeSecs := some seconds }

/-- The constructors of a layer. -/
inductive Start
  | new
  | permissive
  | veryPermissive

def Start.layer : Start → CorsLayer
  | new => CorsLayer.new
  | permissive => CorsLayer.permissive
  | veryPermissive => CorsLayer.veryPermissive

/-- The calls a layer is built with. -/
inductive Call
  | allowOrigin (origins : List HeaderValue)
  | allowMethods (methods : List Method)
  | allowHeaders (headers : List HeaderName)
  | exposeHeaders (headers : List HeaderName)
  | allowCredentials (allow : Bool)
  | maxAge (seconds : ℕ)

def apply (self : CorsLayer) : Call → Option CorsLayer
  | .allowOrigin origins => self.allowOrigin origins
  | .allowMethods methods => self.allowMethods methods
  | .allowHeaders headers => self.allowHeaders headers
  | .exposeHeaders headers => self.exposeHeaders headers
  | .allowCredentials allow => self.allowCredentials allow
  | .maxAge seconds => self.maxAge seconds

/-- The layer a history of builder calls arrives at, unless one of them panics. -/
def build (start : Start) (calls : List Call) : Option CorsLayer :=
  calls.foldlM apply start.layer

end CorsLayer

/-! ### Requests and responses -/

variable {H E B : Type} [Multimap H HeaderName HeaderValue] [Extensions E] [FromBytes B]

namespace CorsConfig

/-- The value of `Access-Control-Allow-Origin` for an origin, if it is allowed. -/
def resolvedOrigin (self : CorsConfig) (origin : HeaderValue) : Option HeaderValue :=
  match self.allowOrigins with
  | .any => if self.allowCredentials then some origin else some (HeaderValue.fromStatic "*")
  | .mirror => some origin
  | .list origins => if origin ∈ origins then some origin else none

/-- The value of `Access-Control-Allow-Headers`. -/
def headersHeader (self : CorsConfig) (requestHeaders : H) : Option HeaderValue :=
  match self.allowHeaders with
  | .any => some (HeaderValue.fromStatic "*")
  | .mirror => Multimap.get requestHeaders HeaderName.accessControlRequestHeaders
  | .list _ => self.allowHeadersListHv

/-- The response to a preflight request. -/
def buildPreflight (self : CorsConfig) (origin : HeaderValue) (requestHeaders : H) :
    Response H E B :=
  match self.resolvedOrigin origin with
  -- a bare response: the browser rejects the request
  | none => (ResponseBuilder.new.status .noContent).body FromBytes.empty
  | some allowOrigin =>
    let builder : ResponseBuilder H E := ((ResponseBuilder.new.status .noContent).header
      HeaderName.accessControlAllowOrigin allowOrigin).header
      HeaderName.accessControlAllowMethods self.methodsHv
    let builder := builder.headerIf HeaderName.accessControlAllowHeaders
      (self.headersHeader requestHeaders)
    let builder := if self.allowCredentials then
        builder.header HeaderName.accessControlAllowCredentials (HeaderValue.fromStatic "true")
      else builder
    let builder := builder.headerIf HeaderName.accessControlMaxAge self.maxAgeHv
    let builder := builder.header HeaderName.vary (HeaderValue.fromStatic
      "Origin, Access-Control-Request-Method, Access-Control-Request-Headers")
    builder.body FromBytes.empty

/-- The answers to actual requests depend on the origin: they do unless it is the wildcard. -/
def variesOnOrigin (self : CorsConfig) : Bool :=
  !decide (self.allowOrigins = .any) || self.allowCredentials

/-- A response of the inner service, with the headers for an origin. -/
def applyResponseHeaders (self : CorsConfig) (response : Response H E B) (origin : HeaderValue) :
    Response H E B :=
  match self.resolvedOrigin origin with
  -- an origin that is not allowed gets the response as it is
  | none => response
  | some allowOrigin =>
    let headers := Multimap.insert response.headers HeaderName.accessControlAllowOrigin allowOrigin
    let headers := if self.allowCredentials then
        Multimap.insert headers HeaderName.accessControlAllowCredentials
          (HeaderValue.fromStatic "true")
      else headers
    let headers := self.exposeHv.elim headers
      (Multimap.insert headers HeaderName.accessControlExposeHeaders)
    -- appended: the handler may have sent a `Vary` of its own
    let headers := if self.variesOnOrigin then
        Multimap.append headers HeaderName.vary (HeaderValue.fromStatic "origin")
      else headers
    { response with headers }

end CorsConfig

/-- A preflight asks for a method with `OPTIONS`. -/
def isPreflight (req : Request H E B) : Bool :=
  decide (req.method = .options) &&
    Multimap.containsKey req.headers HeaderName.accessControlRequestMethod

/-- A request through the layer. -/
def CorsLayer.call {m : Type → Type} [Monad m] (self : CorsLayer)
    (inner : Request H E B → m (Response H E B)) (req : Request H E B) : m (Response H E B) :=
  match Multimap.get req.headers HeaderName.origin with
  | none => inner req
  | some origin =>
    if isPreflight req then pure (self.config.buildPreflight origin req.headers)
    else do
      let response ← inner req
      return self.config.applyResponseHeaders response origin

/-! ### The headers of an answer -/

namespace CorsConfig

/-- The headers of the answer to a preflight. -/
def preflightHeaders (self : CorsConfig) (requestHeaders : H) (allowOrigin : HeaderValue) :
    List (HeaderName × HeaderValue) :=
  [(HeaderName.accessControlAllowOrigin, allowOrigin),
      (HeaderName.accessControlAllowMethods, self.methodsHv)] ++
    ((self.headersHeader requestHeaders).map fun v ↦
      (HeaderName.accessControlAllowHeaders, v)).toList ++
    (if self.allowCredentials then
      [(HeaderName.accessControlAllowCredentials, HeaderValue.fromStatic "true")] else []) ++
    (self.maxAgeHv.map fun v ↦ (HeaderName.accessControlMaxAge, v)).toList ++
    [(HeaderName.vary, HeaderValue.fromStatic
      "Origin, Access-Control-Request-Method, Access-Control-Request-Headers")]

theorem valuesFor_credentials_of_ne (self : CorsConfig) {name : HeaderName}
    (hname : name ≠ HeaderName.accessControlAllowCredentials) :
    Multimap.valuesFor name (if self.allowCredentials then
      [(HeaderName.accessControlAllowCredentials, HeaderValue.fromStatic "true")] else []) =
        [] := by
  split
  · rw [Multimap.valuesFor_cons, if_neg hname.symm, Multimap.valuesFor_nil]
    rfl
  · rfl

theorem buildPreflight_eq {self : CorsConfig} {requestHeaders : H}
    {origin allowOrigin : HeaderValue} (h : self.resolvedOrigin origin = some allowOrigin) :
    (self.buildPreflight origin requestHeaders : Response H E B) =
      (ResponseBuilder.ofPairs .noContent (self.preflightHeaders requestHeaders allowOrigin)).body
        FromBytes.empty := by
  rw [buildPreflight, h, preflightHeaders]
  dsimp only
  rw [ResponseBuilder.status_new]
  by_cases hcred : self.allowCredentials
  · simp [hcred]
  · simp [hcred]

theorem getAll_buildPreflight {self : CorsConfig} {requestHeaders : H}
    {origin allowOrigin : HeaderValue} (h : self.resolvedOrigin origin = some allowOrigin)
    (name : HeaderName) :
    Multimap.getAll (self.buildPreflight origin requestHeaders : Response H E B).headers name =
      Multimap.valuesFor name (self.preflightHeaders requestHeaders allowOrigin) := by
  rw [buildPreflight_eq h]
  exact ResponseBuilder.getAll_body_ofPairs _ name

/-- An origin that is not allowed is answered without any header. -/
theorem getAll_buildPreflight_of_none {self : CorsConfig} {requestHeaders : H}
    {origin : HeaderValue} (h : self.resolvedOrigin origin = none) (name : HeaderName) :
    Multimap.getAll (self.buildPreflight origin requestHeaders : Response H E B).headers name =
      [] := by
  rw [buildPreflight, h]
  show Multimap.getAll ((ResponseBuilder.ofPairs .noContent [] : ResponseBuilder H E).body
    (FromBytes.empty : B)).headers name = Multimap.valuesFor name []
  exact ResponseBuilder.getAll_body_ofPairs _ name

/-- The value a response of the inner service gets for a name, if the name is set at all. -/
def headerFor (self : CorsConfig) (allowOrigin : HeaderValue) (name : HeaderName) :
    Option HeaderValue :=
  if name = HeaderName.accessControlAllowOrigin then some allowOrigin
  else if name = HeaderName.accessControlAllowCredentials then
    if self.allowCredentials then some (HeaderValue.fromStatic "true") else none
  else if name = HeaderName.accessControlExposeHeaders then self.exposeHv
  else none

theorem headerFor_credentials (self : CorsConfig) (allowOrigin : HeaderValue) :
    self.headerFor allowOrigin HeaderName.accessControlAllowCredentials =
      if self.allowCredentials then some (HeaderValue.fromStatic "true") else none := by
  rw [headerFor, if_neg (by decide), if_pos rfl]

omit [Extensions E] [FromBytes B] in
/-- The values of a name when the headers of an answer are set. -/
theorem getAll_applyResponseHeaders {self : CorsConfig} {origin allowOrigin : HeaderValue}
    (h : self.resolvedOrigin origin = some allowOrigin) (response : Response H E B)
    (name : HeaderName) :
    Multimap.getAll (self.applyResponseHeaders response origin).headers name =
      ((self.headerFor allowOrigin name).map fun v ↦ [v]).getD
          (Multimap.getAll response.headers name) ++
        if name = HeaderName.vary ∧ self.variesOnOrigin then
          [HeaderValue.fromStatic "origin"] else [] := by
  rw [applyResponseHeaders, h]
  refine (Multimap.getAll_ite_append _ _ _ _ _).trans (congrArg (· ++ _) ?_)
  rw [Multimap.getAll_elim_insert, Multimap.getAll_ite_insert, Multimap.getAll_insert, headerFor]
  by_cases horigin : name = HeaderName.accessControlAllowOrigin
  · subst horigin
    rw [if_neg (by decide), if_neg fun h ↦ absurd h.1 (by decide), if_pos rfl, if_pos rfl]
    rfl
  · rw [if_neg horigin, if_neg horigin]
    by_cases hcredential : name = HeaderName.accessControlAllowCredentials
    · subst hcredential
      rw [if_neg (by decide), if_pos rfl]
      by_cases hcred : self.allowCredentials
      · rw [if_pos ⟨rfl, hcred⟩, if_pos hcred]
        rfl
      · rw [if_neg fun h ↦ hcred h.2, if_neg hcred]
        rfl
    · have hneither : ¬ (name = HeaderName.accessControlAllowCredentials ∧
          self.allowCredentials = true) := fun h ↦ hcredential h.1
      rw [if_neg hneither, if_neg hcredential]
      split
      · rfl
      · rfl

end CorsConfig

/-! ### The three treatments of a request -/

/-- What becomes of a request. -/
inductive Treatment
  /-- The response is that of the inner service: the request has no origin, or is no preflight and
  its origin is not allowed. -/
  | untouched
  /-- A preflight of an origin that is not allowed. -/
  | rejected
  /-- The response carries the headers for this origin. -/
  | answered (allowOrigin : HeaderValue)

/-- The treatment of a request. -/
def CorsConfig.treatment (self : CorsConfig) (req : Request H E B) : Treatment :=
  match Multimap.get req.headers HeaderName.origin with
  | none => .untouched
  | some origin =>
    match self.resolvedOrigin origin with
    | some allowOrigin => .answered allowOrigin
    | none => if isPreflight req then .rejected else .untouched

/-- The response a treatment comes to, out of the headers `inner` of the response of the inner
service: the values of every name but `Vary`. -/
def CorsConfig.valuesOf (self : CorsConfig) (preflight : Bool) (requestHeaders inner : H)
    (name : HeaderName) : Treatment → List HeaderValue
  | .untouched => Multimap.getAll inner name
  | .rejected => []
  | .answered allowOrigin =>
    if preflight then
      Multimap.valuesFor name (self.preflightHeaders requestHeaders allowOrigin)
    else
      ((self.headerFor allowOrigin name).map fun v ↦ [v]).getD (Multimap.getAll inner name)

namespace CorsLayer

/-- **What a response says**, of every name but `Vary`. -/
theorem getAll_call (self : CorsLayer) (inner : Request H E B → Id (Response H E B))
    (req : Request H E B) {name : HeaderName} (hname : name ≠ HeaderName.vary) :
    Multimap.getAll (self.call inner req).run.headers name =
      self.config.valuesOf (isPreflight req) req.headers (inner req).run.headers name
        (self.config.treatment req) := by
  rw [call, CorsConfig.treatment]
  rcases Multimap.get req.headers HeaderName.origin with - | origin
  · rfl
  dsimp only
  by_cases hpreflight : isPreflight req
  · rw [if_pos hpreflight, if_pos hpreflight, hpreflight]
    rcases hresolved : self.config.resolvedOrigin origin with - | allowOrigin
    · exact CorsConfig.getAll_buildPreflight_of_none hresolved name
    · exact CorsConfig.getAll_buildPreflight hresolved name
  · rw [if_neg hpreflight, if_neg hpreflight, Bool.eq_false_iff.2 hpreflight]
    show Multimap.getAll (self.config.applyResponseHeaders (inner req).run origin).headers name = _
    rcases hresolved : self.config.resolvedOrigin origin with - | allowOrigin
    · rw [CorsConfig.applyResponseHeaders, hresolved]
      rfl
    · rw [CorsConfig.getAll_applyResponseHeaders hresolved, if_neg fun h ↦ hname h.1,
        List.append_nil]
      rfl

omit [Extensions E] [FromBytes B] in
/-- An answer is given for the origin of the request. -/
theorem exists_resolvedOrigin {self : CorsLayer} {req : Request H E B} {allowOrigin : HeaderValue}
    (h : self.config.treatment req = .answered allowOrigin) :
    ∃ origin, Multimap.get req.headers HeaderName.origin = some origin ∧
      self.config.resolvedOrigin origin = some allowOrigin := by
  rw [CorsConfig.treatment] at h
  rcases horigin : Multimap.get req.headers HeaderName.origin with - | origin
  · rw [horigin] at h
    cases h
  · rw [horigin] at h
    rcases hresolved : self.config.resolvedOrigin origin with - | value
    · simp only [hresolved] at h
      split at h <;> cases h
    · simp only [hresolved, Treatment.answered.injEq] at h
      exact ⟨origin, rfl, h ▸ hresolved⟩

end CorsLayer

/-! ### Credentials -/

/-- The headers of the protocol. -/
def HeaderName.isAccessControl (name : HeaderName) : Bool :=
  "access-control-".toList.isPrefixOf name.text

namespace CorsLayer

/-- A response that allows credentials names the origin of its request, which is one of those
listed and not the wildcard. -/
def CredentialSafe (H E B : Type) [Multimap H HeaderName HeaderValue] [Extensions E] [FromBytes B]
    (self : CorsLayer) : Prop :=
  ∀ (inner : Request H E B → Id (Response H E B)) (req : Request H E B),
    (∀ name, name.isAccessControl → Multimap.getAll (inner req).run.headers name = []) →
      HeaderValue.fromStatic "true" ∈ Multimap.getAll (self.call inner req).run.headers
        HeaderName.accessControlAllowCredentials →
      ∃ origin origins, Multimap.get req.headers HeaderName.origin = some origin ∧
        Multimap.getAll (self.call inner req).run.headers HeaderName.accessControlAllowOrigin =
          [origin] ∧
        self.config.allowOrigins = .list origins ∧ origin ∈ origins ∧
        origin ≠ HeaderValue.fromStatic "*"

/-- With credentials the origins are listed, and an allowed one is among them. -/
theorem exists_origins {self : CorsLayer} (hcred : self.config.allowCredentials)
    {origin allowOrigin : HeaderValue}
    (h : self.config.resolvedOrigin origin = some allowOrigin) :
    allowOrigin = origin ∧ ∃ origins, self.config.allowOrigins = .list origins ∧
      origin ∈ origins := by
  have hsafe := self.credentialsSafe
  rw [CorsConfig.assertCredentialsSafe, hcred] at hsafe
  rw [CorsConfig.resolvedOrigin] at h
  split at h
  · next hany => rw [hany] at hsafe; exact absurd hsafe Bool.false_ne_true
  · next hmirror => rw [hmirror] at hsafe; exact absurd hsafe Bool.false_ne_true
  · next origins horigins =>
    split at h
    · next hmem => exact ⟨(Option.some.inj h).symm, origins, horigins, hmem⟩
    · exact nomatch h

/-- An answer with credentials comes of a configuration that allows them. -/
theorem allowCredentials_of_mem_preflightHeaders {config : CorsConfig} {requestHeaders : H}
    {allowOrigin value : HeaderValue}
    (h : value ∈ Multimap.valuesFor HeaderName.accessControlAllowCredentials
      (config.preflightHeaders requestHeaders allowOrigin)) : config.allowCredentials := by
  by_contra hcred
  have hnil : Multimap.valuesFor HeaderName.accessControlAllowCredentials
      (config.preflightHeaders requestHeaders allowOrigin) = [] := by
    simp (disch := decide) only [CorsConfig.preflightHeaders, hcred,
      Multimap.valuesFor_append, Multimap.valuesFor_cons, Multimap.valuesFor_nil,
      List.append_nil, Multimap.valuesFor_map_toList_of_ne, if_neg]
  exact List.not_mem_nil (hnil ▸ h)

/-- The answer to a preflight names one origin. -/
theorem valuesFor_allowOrigin_preflightHeaders (config : CorsConfig) (requestHeaders : H)
    (allowOrigin : HeaderValue) :
    Multimap.valuesFor HeaderName.accessControlAllowOrigin
      (config.preflightHeaders requestHeaders allowOrigin) = [allowOrigin] := by
  simp (disch := decide) only [CorsConfig.preflightHeaders, Multimap.valuesFor_append,
    Multimap.valuesFor_cons, Multimap.valuesFor_nil,
    CorsConfig.valuesFor_credentials_of_ne, Multimap.valuesFor_map_toList_of_ne, if_neg]
  rfl

/-- An answer names one origin. -/
theorem valuesOf_allowOrigin (config : CorsConfig) (preflight : Bool) (requestHeaders inner : H)
    (allowOrigin : HeaderValue) :
    config.valuesOf preflight requestHeaders inner HeaderName.accessControlAllowOrigin
      (.answered allowOrigin) = [allowOrigin] := by
  rcases preflight with - | -
  · rw [CorsConfig.valuesOf, if_neg Bool.false_ne_true, CorsConfig.headerFor, if_pos rfl]
    rfl
  · rw [CorsConfig.valuesOf, if_pos rfl]
    exact valuesFor_allowOrigin_preflightHeaders config requestHeaders allowOrigin

/-- Credentials that the inner service does not allow are allowed by the configuration. -/
theorem allowCredentials_of_mem_valuesOf {config : CorsConfig} {preflight : Bool}
    {requestHeaders inner : H} {treatment : Treatment} {value : HeaderValue}
    (hinner : Multimap.getAll inner HeaderName.accessControlAllowCredentials = [])
    (h : value ∈ config.valuesOf preflight requestHeaders inner
      HeaderName.accessControlAllowCredentials treatment) :
    config.allowCredentials ∧ ∃ allowOrigin, treatment = .answered allowOrigin := by
  have hnone : value ∉ Multimap.getAll inner HeaderName.accessControlAllowCredentials := by
    rw [hinner]
    exact List.not_mem_nil
  rcases treatment with - | - | allowOrigin
  · exact absurd h hnone
  · exact absurd h List.not_mem_nil
  · refine ⟨?_, allowOrigin, rfl⟩
    rcases preflight with - | -
    · by_contra hcred
      have hunset : config.headerFor allowOrigin HeaderName.accessControlAllowCredentials =
          none := by
        rw [CorsConfig.headerFor_credentials, if_neg hcred]
      rw [CorsConfig.valuesOf, if_neg Bool.false_ne_true, hunset] at h
      exact hnone h
    · rw [CorsConfig.valuesOf, if_pos rfl] at h
      exact allowCredentials_of_mem_preflightHeaders h

theorem credentials_ne_vary : HeaderName.accessControlAllowCredentials ≠ HeaderName.vary := by
  decide

/-- **Listed origins are safe as long as the wildcard is not one of them.** A listed origin is sent
only to a request that names it. -/
theorem credentialSafe_of_not_wildcard {self : CorsLayer}
    (h : self.config.allowCredentials → ∀ origins, self.config.allowOrigins = .list origins →
      HeaderValue.fromStatic "*" ∉ origins) : self.CredentialSafe H E B := by
  intro inner req hinner htrue
  rw [getAll_call _ _ _ credentials_ne_vary] at htrue
  obtain ⟨hcred, allowOrigin, htreatment⟩ :=
    allowCredentials_of_mem_valuesOf (hinner _ (by decide)) htrue
  obtain ⟨origin, horigin, hresolved⟩ := exists_resolvedOrigin htreatment
  obtain ⟨rfl, origins, horigins, hmem⟩ := exists_origins hcred hresolved
  refine ⟨allowOrigin, origins, horigin, ?_, horigins, hmem,
    fun hstar ↦ h hcred origins horigins (hstar ▸ hmem)⟩
  rw [getAll_call _ _ _ (by decide), htreatment]
  exact valuesOf_allowOrigin ..

/-- A request from an origin. -/
def requestFrom (origin : HeaderValue) : Request H E B where
  inner := ⟨.get, { path := ['/'] },
    Multimap.insert Multimap.empty HeaderName.origin origin, Extensions.empty, FromBytes.empty,
    .http11⟩
  extensions := Extensions.empty

/-- A response without headers. -/
def bareResponse : Response H E B :=
  ⟨.ok, Multimap.empty, Extensions.empty, FromBytes.empty⟩

/-- A listed wildcard is answered to a request whose origin is the wildcard. -/
theorem not_credentialSafe_of_wildcard {self : CorsLayer} {origins : List HeaderValue}
    (hcred : self.config.allowCredentials) (horigins : self.config.allowOrigins = .list origins)
    (hmem : HeaderValue.fromStatic "*" ∈ origins) : ¬ self.CredentialSafe H E B := by
  intro hsafe
  have hget : Multimap.get (requestFrom (HeaderValue.fromStatic "*") : Request H E B).headers
      HeaderName.origin = some (HeaderValue.fromStatic "*") := by
    show (Multimap.getAll (Multimap.insert _ _ _) _).head? = _
    rw [Multimap.getAll_insert, if_pos rfl]
    rfl
  have htreatment : self.config.treatment
      (requestFrom (HeaderValue.fromStatic "*") : Request H E B) =
        .answered (HeaderValue.fromStatic "*") := by
    rw [CorsConfig.treatment, hget]
    simp only [CorsConfig.resolvedOrigin, horigins, if_pos hmem]
  obtain ⟨origin, -, horigin, -, -, -, hne⟩ := hsafe (fun _ ↦ pure bareResponse)
    (requestFrom (HeaderValue.fromStatic "*")) (fun name _ ↦ Multimap.getAll_empty name) (by
      rw [getAll_call _ _ _ credentials_ne_vary, htreatment]
      show _ ∈ ((self.config.headerFor _ _).map _).getD _
      rw [CorsConfig.headerFor_credentials, if_pos hcred]
      exact List.mem_singleton_self _)
  exact hne (Option.some.inj (horigin.symm.trans hget))

/-- **Every history of builder calls** ends in a layer whose rendered values are those of its
fields; and it is safe exactly if it does not combine credentials with a listed wildcard. -/
theorem build_safe_iff (start : Start) (calls : List Call) (layer : CorsLayer)
    (_ : build start calls = some layer) :
    (layer.CredentialSafe H E B ∧ layer.config.Coherent) ↔
      ¬ (layer.config.allowCredentials ∧ ∃ origins, layer.config.allowOrigins = .list origins ∧
        HeaderValue.fromStatic "*" ∈ origins) := by
  refine ⟨fun ⟨hsafe, _⟩ ⟨hcred, origins, horigins, hmem⟩ ↦
    not_credentialSafe_of_wildcard hcred horigins hmem hsafe, fun h ↦ ⟨?_, layer.coherent⟩⟩
  exact credentialSafe_of_not_wildcard fun hcred origins horigins hmem ↦
    h ⟨hcred, origins, horigins, hmem⟩

/-- Credentials, enabled before the origins are listed and again after the listing has changed, with
every derived value rendered anew on the way. -/
def listedHistory : List Call :=
  [.allowCredentials true, .maxAge 60, .allowOrigin [HeaderValue.fromStatic "https://a.example"],
    .exposeHeaders [HeaderName.etag], .allowMethods [.get, .delete],
    .allowOrigin [HeaderValue.fromStatic "https://b.example",
      HeaderValue.fromStatic "https://c.example"], .allowCredentials true]

theorem build_listedHistory_safe :
    ∃ layer, build .new listedHistory = some layer ∧ layer.config.allowCredentials ∧
      layer.CredentialSafe (AssocList HeaderName HeaderValue) (Option Unit)
        (Body (AssocList HeaderName HeaderValue)) ∧ layer.config.Coherent := by
  refine ⟨_, rfl, rfl, (build_safe_iff .new listedHistory _ rfl).2 ?_⟩
  rintro ⟨-, origins, horigins, hmem⟩
  rw [← AllowOrigin.list.inj horigins] at hmem
  revert hmem
  decide

/-- The wildcard may be listed, and credentials enabled after that. -/
theorem build_wildcard_not_safe :
    ∃ layer, build .new [.allowOrigin [HeaderValue.fromStatic "*"], .allowCredentials true] =
        some layer ∧
      ¬ layer.CredentialSafe (AssocList HeaderName HeaderValue) (Option Unit)
        (Body (AssocList HeaderName HeaderValue)) :=
  ⟨_, rfl, not_credentialSafe_of_wildcard rfl rfl (List.mem_singleton_self _)⟩

end CorsLayer
