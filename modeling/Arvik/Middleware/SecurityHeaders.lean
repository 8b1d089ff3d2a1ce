import Arvik.Foundation.Layering
import Arvik.Middleware.RequestId

/-!
# Layers that set headers

A layer can set one header of every response or of every request: if it is not there yet, in place
of what is there, or in addition to it. Another layer sets the security headers that a handler has
not set.

The layers treat every header on its own, so what a stack of them makes of a header is what its
layers make of the values, one after the other; a request is changed from the outside in and a
response from the inside out (`HeaderLayer.applyAll_sets`). No layer takes a header away, and a
header that only the security layer sets keeps what the handler chose
(`HeaderLayer.secured_of_mem`).

A layer is thus two functions on the values of a name, one for requests and one for responses, and a
stack is the composition of these. The induction on the stack is done once, for messages as a whole,
and yields that there is one call of the service inside and that only headers changed; after that no
theorem speaks of services. A default of the security layer is set where nothing is there, and no
layer before or behind it removes anything, so one security layer is enough wherever it stands.
-/

/-- How a header is set. -/
inductive HeaderMode
  | ifNotPresent
  | overriding
  | appending
  deriving DecidableEq

section Modes

variable {H : Type} [Multimap H HeaderName HeaderValue]

/-- Set a header that is not there. -/
def orInsert (headers : H) (name : HeaderName) (value : HeaderValue) : H :=
  if Multimap.containsKey headers name then headers else Multimap.insert headers name value

/-- Set a header in a map. -/
def HeaderMode.set (headers : H) (name : HeaderName) (value : HeaderValue) : HeaderMode → H
  | ifNotPresent => orInsert headers name value
  | overriding => Multimap.insert headers name value
  | appending => Multimap.append headers name value

/-- Set a header whose values are known. -/
def HeaderMode.values (value : HeaderValue) : HeaderMode → List HeaderValue → List HeaderValue
  | ifNotPresent, [] => [value]
  | ifNotPresent, values => values
  | overriding, _ => [value]
  | appending, values => values ++ [value]

theorem getAll_orInsert (headers : H) (name other : HeaderName) (value : HeaderValue) :
    Multimap.getAll (orInsert headers name value) other =
      if other = name then HeaderMode.ifNotPresent.values value (Multimap.getAll headers other)
      else Multimap.getAll headers other := by
  rw [orInsert, Multimap.containsKey]
  rcases hvalues : Multimap.getAll headers name with - | ⟨v, values⟩
  · rw [if_neg (by simp), Multimap.getAll_insert]
    split_ifs with hname
    · rw [hname, hvalues]
      rfl
    · rfl
  · rw [if_pos (by simp)]
    split_ifs with hname
    · rw [hname, hvalues]
      rfl
    · rfl

theorem getAll_set (mode : HeaderMode) (headers : H) (name other : HeaderName)
    (value : HeaderValue) : Multimap.getAll (mode.set headers name value) other =
      if other = name then mode.values value (Multimap.getAll headers other)
      else Multimap.getAll headers other := by
  rcases mode with - | - | -
  · exact getAll_orInsert headers name other value
  · exact Multimap.getAll_insert headers name value other
  · exact Multimap.getAll_append headers name value other

end Modes

/-! ### The layers -/

/-- The layer that sets one header of every response. -/
structure SetResponseHeaderLayer where
  name : HeaderName
  value : HeaderValue
  mode : HeaderMode

/-- The layer that sets one header of every request. -/
structure SetRequestHeaderLayer where
  name : HeaderName
  value : HeaderValue
  mode : HeaderMode

/-- The layer that sets the security headers. -/
structure SecurityHeadersLayer where
  csp : Option Str := some ("default-src 'self'; script-src 'self'; ".toList ++
    "style-src 'self' 'unsafe-inline'; img-src 'self' data:; font-src 'self'; ".toList ++
    "connect-src 'self'; frame-ancestors 'none'".toList)
  hstsMaxAge : ℕ := 31536000
  frameOptions : Str := "DENY".toList

namespace SecurityHeadersLayer

def contentSecurityPolicy (self : SecurityHeadersLayer) (csp : Str) : SecurityHeadersLayer :=
  { self with csp := some csp }

def noContentSecurityPolicy (self : SecurityHeadersLayer) : SecurityHeadersLayer :=
  { self with csp := none }

/-- The texts of the headers. -/
def texts (self : SecurityHeadersLayer) : List (HeaderName × Str) :=
  [(.xFrameOptions, self.frameOptions),
    (.xContentTypeOptions, "nosniff".toList),
    (.xXssProtection, "1; mode=block".toList),
    (.strictTransportSecurity,
      "max-age=".toList ++ Nat.toDigits 10 self.hstsMaxAge ++ "; includeSubDomains".toList),
    (.referrerPolicy, "strict-origin-when-cross-origin".toList),
    (.permissionsPolicy, "geolocation=(), microphone=(), camera=(), payment=()".toList)] ++
  (self.csp.map fun csp ↦ (HeaderName.contentSecurityPolicy, csp)).toList

/-- The headers; a text that cannot be sent is left out. -/
def headers (self : SecurityHeadersLayer) : List (HeaderName × HeaderValue) :=
  self.texts.filterMap fun p ↦ (HeaderValue.fromStr p.2).map (p.1, ·)

end SecurityHeadersLayer

/-- A layer that sets headers. -/
inductive HeaderLayer
  | response (layer : SetResponseHeaderLayer)
  | request (layer : SetRequestHeaderLayer)
  | security (layer : SecurityHeadersLayer)

section Calls

variable {H E B : Type} [Multimap H HeaderName HeaderValue] {m : Type → Type} [Monad m]

/-- A request through the layer that sets a header of the response. -/
def SetResponseHeaderLayer.call (self : SetResponseHeaderLayer)
    (inner : Request H E B → m (Response H E B)) (req : Request H E B) : m (Response H E B) := do
  let response ← inner req
  pure { response with headers := self.mode.set response.headers self.name self.value }

/-- A request through the layer that sets a header of the request. -/
def SetRequestHeaderLayer.call (self : SetRequestHeaderLayer)
    (inner : Request H E B → m (Response H E B)) (req : Request H E B) : m (Response H E B) :=
  inner { req with inner :=
    { req.inner with headers := self.mode.set req.headers self.name self.value } }

/-- A request through the layer that sets the security headers. -/
def SecurityHeadersLayer.call (self : SecurityHeadersLayer)
    (inner : Request H E B → m (Response H E B)) (req : Request H E B) : m (Response H E B) := do
  let response ← inner req
  let headers := self.headers.foldl (fun headers p ↦ orInsert headers p.1 p.2) response.headers
  pure { response with headers }

def HeaderLayer.call : HeaderLayer → (Request H E B → m (Response H E B)) → Request H E B →
    m (Response H E B)
  | .response layer => layer.call
  | .request layer => layer.call
  | .security layer => layer.call

end Calls

/-! ### What a stack makes of a header -/

namespace HeaderLayer

section Stack

variable {H E B : Type} [Multimap H HeaderName HeaderValue]

/-- The request that a layer hands on. -/
def enter : HeaderLayer → Request H E B → Request H E B
  | request layer, req =>
    { req with inner :=
      { req.inner with headers := layer.mode.set req.headers layer.name layer.value } }
  | _, req => req

/-- What a layer makes of a response. -/
def finish : HeaderLayer → Response H E B → Response H E B
  | response layer, r =>
    { r with headers := layer.mode.set r.headers layer.name layer.value }
  | request _, r => r
  | security layer, r =>
    let headers := layer.headers.foldl (fun headers p ↦ orInsert headers p.1 p.2) r.headers
    { r with headers }

/-- What a layer makes of the values of a header of a request. -/
def requestValues (name : HeaderName) : HeaderLayer → List HeaderValue → List HeaderValue
  | request layer, values =>
    if name = layer.name then layer.mode.values layer.value values else values
  | _, values => values

/-- What a layer makes of the values of a header of a response. -/
def responseValues (name : HeaderName) : HeaderLayer → List HeaderValue → List HeaderValue
  | response layer, values =>
    if name = layer.name then layer.mode.values layer.value values else values
  | request _, values => values
  | security layer, values => layer.headers.foldl
      (fun values p ↦ if name = p.1 then HeaderMode.ifNotPresent.values p.2 values else values)
      values

/-- What all layers make of a request, from the outermost to the innermost. -/
def enterAll (layers : List HeaderLayer) (req : Request H E B) : Request H E B :=
  layers.foldr enter req

/-- What all layers make of a response, from the innermost to the outermost. -/
def finishAll (layers : List HeaderLayer) (r : Response H E B) : Response H E B :=
  layers.foldl (fun r layer ↦ layer.finish r) r

theorem getAll_foldl_orInsert (headers : H) (pairs : List (HeaderName × HeaderValue))
    (name : HeaderName) :
    Multimap.getAll (pairs.foldl (fun headers p ↦ orInsert headers p.1 p.2) headers) name =
      pairs.foldl
        (fun values p ↦ if name = p.1 then HeaderMode.ifNotPresent.values p.2 values else values)
        (Multimap.getAll headers name) := by
  induction pairs generalizing headers with
  | nil => rfl
  | cons p pairs ih => rw [List.foldl_cons, ih, getAll_orInsert, List.foldl_cons]

theorem getAll_enter (self : HeaderLayer) (req : Request H E B) (name : HeaderName) :
    Multimap.getAll (self.enter req).headers name =
      self.requestValues name (Multimap.getAll req.headers name) := by
  rcases self with layer | layer | layer
  · rfl
  · exact getAll_set layer.mode req.headers layer.name name layer.value
  · rfl

theorem getAll_finish (self : HeaderLayer) (r : Response H E B) (name : HeaderName) :
    Multimap.getAll (self.finish r).headers name =
      self.responseValues name (Multimap.getAll r.headers name) := by
  rcases self with layer | layer | layer
  · exact getAll_set layer.mode r.headers layer.name name layer.value
  · rfl
  · exact getAll_foldl_orInsert r.headers layer.headers name

theorem getAll_finishAll (layers : List HeaderLayer) (r : Response H E B) (name : HeaderName) :
    Multimap.getAll (finishAll layers r).headers name =
      layers.foldl (fun values layer ↦ layer.responseValues name values)
        (Multimap.getAll r.headers name) := by
  induction layers generalizing r with
  | nil => rfl
  | cons layer layers ih =>
    rw [List.foldl_cons, ← getAll_finish, ← ih]
    rfl

/-- A stack changes headers only. -/
theorem finishAll_eq (layers : List HeaderLayer) (r : Response H E B) :
    ∃ headers, finishAll layers r = { r with headers } := by
  induction layers generalizing r with
  | nil => exact ⟨r.headers, rfl⟩
  | cons layer layers ih =>
    obtain ⟨headers, hrest⟩ := ih (layer.finish r)
    refine ⟨headers, hrest.trans ?_⟩
    rcases layer with layer | layer | layer
    · rfl
    · rfl
    · rfl

theorem enterAll_eq (layers : List HeaderLayer) (req : Request H E B) :
    ∃ headers, enterAll layers req = { req with inner := { req.inner with headers } } := by
  induction layers with
  | nil => exact ⟨req.headers, rfl⟩
  | cons layer layers ih =>
    obtain ⟨headers, hrest⟩ := ih
    show ∃ headers, layer.enter (enterAll layers req) = _
    rw [hrest]
    rcases layer with layer | layer | layer
    · exact ⟨headers, rfl⟩
    · exact ⟨_, rfl⟩
    · exact ⟨headers, rfl⟩

variable {m : Type → Type} [Monad m] [LawfulMonad m]

theorem call_eq (self : HeaderLayer) (inner : Request H E B → m (Response H E B))
    (req : Request H E B) :
    self.call inner req = inner (self.enter req) >>= fun r ↦ pure (self.finish r) := by
  rcases self with layer | layer | layer
  · rfl
  · exact (bind_pure _).symm
  · rfl

/-- **A stack of layers** calls the service inside once. The headers of the request are set from the
outside in and those of the response from the inside out, each header on its own, and nothing else
is changed. -/
theorem applyAll_sets (layers : List HeaderLayer) (inner : Request H E B → m (Response H E B))
    (req : Request H E B) :
    (Layering.applyAll call inner layers req =
      inner (enterAll layers req) >>= fun r ↦ pure (finishAll layers r)) ∧
    ((∃ headers, enterAll layers req = { req with inner := { req.inner with headers } }) ∧
      ∀ name, Multimap.getAll (enterAll layers req).headers name =
        layers.foldr (requestValues name) (Multimap.getAll req.headers name)) ∧
    ∀ r : Response H E B, (∃ headers, finishAll layers r = { r with headers }) ∧
      ∀ name, Multimap.getAll (finishAll layers r).headers name =
        layers.foldl (fun values layer ↦ layer.responseValues name values)
          (Multimap.getAll r.headers name) := by
  refine ⟨?_, ⟨enterAll_eq layers req, fun name ↦ ?_⟩,
    fun r ↦ ⟨finishAll_eq layers r, getAll_finishAll layers r⟩⟩
  · induction layers generalizing inner with
    | nil => exact (bind_pure _).symm
    | cons layer layers ih =>
      rw [Layering.applyAll_cons, ih, call_eq, bind_assoc]
      exact bind_congr fun r ↦ pure_bind _ _
  · induction layers with
    | nil => rfl
    | cons layer layers ih =>
      show Multimap.getAll (layer.enter (enterAll layers req)).headers name = _
      rw [getAll_enter, ih, List.foldr_cons]

/-- A page that varies already, inside a layer that adds to the header. -/
theorem applyAll_sets_vary :
    let layers := [security {}, response ⟨.vary, .fromStatic "origin", .appending⟩]
    let page : Response (AssocList HeaderName HeaderValue) Unit Unit :=
      ⟨.ok, ⟨[(.vary, .fromStatic "accept")]⟩, (), ()⟩
    let req : Request (AssocList HeaderName HeaderValue) Unit Unit :=
      .fromRequestParts ⟨.get, { path := "/".toList }, ⟨[]⟩, (), (), .http11⟩ ()
    ∃ r, Layering.applyAll call (fun _ ↦ some page) layers req = some r ∧
      Multimap.getAll r.headers HeaderName.vary =
        [.fromStatic "accept", .fromStatic "origin"] := by
  intro layers page req
  have hsets := applyAll_sets layers (fun _ ↦ some page) req
  exact ⟨finishAll layers page, hsets.1, (hsets.2.2 page).2 HeaderName.vary⟩

end Stack

/-! ### Security headers in a stack -/

section Secured

/-- What a layer sets a header to that is not there, if it is a security layer. -/
def default? (name : HeaderName) : HeaderLayer → Option HeaderValue
  | security layer => layer.headers.lookup name
  | _ => none

/-- Only a security layer sets the header. Other layers of the stack may set any other headers. -/
def LeavesToSecurity (name : HeaderName) : HeaderLayer → Prop
  | response layer => name ≠ layer.name
  | _ => True

theorem foldl_ifNotPresent (name : HeaderName) (pairs : List (HeaderName × HeaderValue))
    (values : List HeaderValue) :
    pairs.foldl
        (fun values p ↦ if name = p.1 then HeaderMode.ifNotPresent.values p.2 values else values)
        values =
      if values = [] then (pairs.lookup name).toList else values := by
  induction pairs generalizing values with
  | nil =>
    split_ifs with h
    · rw [h]
      rfl
    · rfl
  | cons p pairs ih =>
    rw [List.foldl_cons, ih, List.lookup_cons]
    by_cases hname : name = p.1
    · rw [if_pos hname, beq_iff_eq.2 hname]
      rcases values with - | ⟨v, values⟩
      · rfl
      · rfl
    · rw [if_neg hname, beq_false_of_ne hname]

theorem responseValues_of_leaves {self : HeaderLayer} {name : HeaderName}
    (h : self.LeavesToSecurity name) (values : List HeaderValue) :
    self.responseValues name values =
      if values = [] then (self.default? name).toList else values := by
  have hid : values = if values = [] then ([] : List HeaderValue) else values := by
    split_ifs with hnil
    · exact hnil
    · rfl
  rcases self with layer | layer | layer
  · exact (if_neg h).trans hid
  · exact hid
  · exact foldl_ifNotPresent name layer.headers values

/-- No layer takes a header away. -/
theorem responseValues_ne_nil (self : HeaderLayer) (name : HeaderName) {values : List HeaderValue}
    (h : values ≠ []) : self.responseValues name values ≠ [] := by
  rcases self with layer | layer | layer
  · show (if name = layer.name then _ else _) ≠ []
    split_ifs
    · rcases layer.mode with - | - | -
      · obtain ⟨v, rest, rfl⟩ := List.exists_cons_of_ne_nil h
        exact List.cons_ne_nil _ _
      · exact List.cons_ne_nil _ _
      · exact List.append_ne_nil_of_left_ne_nil h _
    · exact h
  · exact h
  · show layer.headers.foldl _ values ≠ []
    rw [foldl_ifNotPresent, if_neg h]
    exact h

theorem foldl_responseValues_ne_nil (layers : List HeaderLayer) (name : HeaderName)
    {values : List HeaderValue} (h : values ≠ []) :
    layers.foldl (fun values layer ↦ layer.responseValues name values) values ≠ [] := by
  induction layers generalizing values with
  | nil => exact h
  | cons layer layers ih => exact ih (layer.responseValues_ne_nil name h)

theorem foldl_responseValues_of_leaves {layers : List HeaderLayer} {name : HeaderName}
    (h : ∀ layer ∈ layers, layer.LeavesToSecurity name) (values : List HeaderValue) :
    layers.foldl (fun values layer ↦ layer.responseValues name values) values =
      if values = [] then (layers.findSome? (default? name)).toList else values := by
  induction layers generalizing values with
  | nil =>
    split_ifs with hnil
    · exact hnil
    · rfl
  | cons layer layers ih =>
    obtain ⟨hlayer, hlayers⟩ := List.forall_mem_cons.1 h
    rw [List.foldl_cons, ih hlayers, responseValues_of_leaves hlayer, List.findSome?_cons]
    rcases values with - | ⟨v, values⟩
    · rcases layer.default? name with - | value
      · rfl
      · rfl
    · rfl

variable {H E B : Type} [Multimap H HeaderName HeaderValue]

/-- **Behind a security layer, anywhere in a stack, a response has all of its headers**, whatever
the service answers and the other layers set. A header that is left to the security layers keeps
the values that the service chose, and has the value of the innermost security layer otherwise. -/
theorem secured_of_mem {layers : List HeaderLayer} {config : SecurityHeadersLayer}
    (hmem : security config ∈ layers) {name : HeaderName} {value : HeaderValue}
    (hheader : (name, value) ∈ config.headers) (r : Response H E B) :
    Multimap.getAll (finishAll layers r).headers name ≠ [] ∧
      ((∀ layer ∈ layers, layer.LeavesToSecurity name) →
        Multimap.getAll (finishAll layers r).headers name =
          if Multimap.getAll r.headers name = [] then
            (layers.findSome? (default? name)).toList
          else Multimap.getAll r.headers name) := by
  refine ⟨?_, fun hleaves ↦ ?_⟩
  · obtain ⟨inside, outside, rfl⟩ := List.append_of_mem hmem
    rw [getAll_finishAll, List.foldl_append, List.foldl_cons]
    refine foldl_responseValues_ne_nil outside name ?_
    show config.headers.foldl _ _ ≠ []
    rw [foldl_ifNotPresent]
    split_ifs with hnil
    · rcases hlookup : config.headers.lookup name with - | value'
      · exact absurd rfl (bne_iff_ne.1 (List.lookup_eq_none_iff.1 hlookup (name, value) hheader))
      · exact List.cons_ne_nil _ _
    · exact hnil
  · rw [getAll_finishAll, foldl_responseValues_of_leaves hleaves]

/-- The frame options of a handler stay, inside two security layers and one that adds to another
header. -/
theorem secured_of_mem_frameOptions :
    let r : Response (AssocList HeaderName HeaderValue) Unit Unit :=
      ⟨.ok, ⟨[(HeaderName.xFrameOptions, .fromStatic "SAMEORIGIN")]⟩, (), ()⟩
    Multimap.getAll (finishAll [security {}, response ⟨.vary, .fromStatic "origin", .appending⟩,
      security { frameOptions := "NONE".toList }] r).headers HeaderName.xFrameOptions =
        [.fromStatic "SAMEORIGIN"] := by
  intro r
  have hheader : (HeaderName.xFrameOptions, HeaderValue.fromStatic "DENY") ∈
      ({} : SecurityHeadersLayer).headers := by
    decide
  have hleaves : ∀ layer ∈ [security {}, response ⟨.vary, .fromStatic "origin", .appending⟩,
      security { frameOptions := "NONE".toList }],
        layer.LeavesToSecurity HeaderName.xFrameOptions := by
    simp only [List.forall_mem_cons, LeavesToSecurity, List.not_mem_nil, false_imp_iff,
      implies_true, and_true, true_and]
    decide
  rw [(secured_of_mem List.mem_cons_self hheader r).2 hleaves]
  rfl

end Secured

end HeaderLayer
