import Arvik.Core.Body
import Mathlib.Control.Monad.Writer

/-!
# Tracing, and headers kept out of it

`TraceLayer` opens a span for every request. With `includeHeaders` the span has a field that holds
the headers of the request. `SensitiveHeadersLayer` names headers whose values are not to appear
there: it leaves the names in an extension of the request, for whoever records headers.

What a request leaves in the trace is recorded in a writer monad. `makeSpan` writes every value as
it came and does not ask for the extension, so two requests with different secrets can be told apart
by their spans, as soon as any header is listed and the span is enabled (`noninterfering_iff`).

The property is one of pairs of runs: requests that differ in the values of listed headers and in
nothing else leave the same spans. The service inside, and what the subscriber has enabled, are
arbitrary. For the converse two requests are made with different values under one listed name, and
the field that the span has for the headers is compared; a value may be any valid one, since it is
written as it is.
-/

/-- The level of a span or an event. -/
inductive Level
  | error
  | warn
  | info
  | debug
  | trace
  deriving DecidableEq

def Version.asStr : Version → Str
  | http09 => "HTTP/0.9".toList
  | http10 => "HTTP/1.0".toList
  | http11 => "HTTP/1.1".toList
  | http2 => "HTTP/2.0".toList
  | http3 => "HTTP/3.0".toList

/-- The fields of a `request` span; those still empty are recorded later. -/
structure SpanFields where
  level : Level
  method : Str
  path : Str
  version : Str
  statusCode : Option ℕ := none
  requestHeaders : Option Str := none
  latency : Option Str := none
  deriving DecidableEq

/-- A span, or none if its level is filtered out. -/
abbrev Span := Option SpanFields

/-- What is written to the trace. -/
inductive TraceEvent
  /-- A span was made. -/
  | span (span : Span)
  /-- The span was completed, and an event was logged in it. -/
  | response (span : SpanFields) (level : Level) (message : Str)
  deriving DecidableEq

/-- The spans made. -/
def TraceEvent.spans (events : List TraceEvent) : List Span :=
  events.filterMap fun event ↦
    match event with
    | .span made => some made
    | .response .. => none

/-- Computations that write a trace. -/
abbrev Traced := Writer (List TraceEvent)

variable {H E B : Type} [Multimap H HeaderName HeaderValue] [Extensions E]

/-! ### Spans -/

/-- The settings of a span. -/
structure DefaultMakeSpan where
  level : Level := .info
  includeHeaders : Bool := false

/-- The headers of a request as one text. -/
def headersField (headers : H) : Str :=
  "; ".toList.intercalate ((Multimap.iter headers).map fun (name, value) ↦
    name.text ++ '=' :: value.toStr.getD ['?'])

/-- The span of a request; `enabled` are the levels of which the subscriber takes spans. -/
def DefaultMakeSpan.makeSpan (self : DefaultMakeSpan) (enabled : Level → Bool)
    (req : Request H E B) : Span :=
  if !enabled self.level then none
  else
    let span : SpanFields := {
      level := self.level
      method := req.method.asStr
      path := req.uri.path
      version := req.version.asStr }
    some { span with
      requestHeaders := if self.includeHeaders then some (headersField req.headers) else none }

omit [Extensions E] in
theorem DefaultMakeSpan.requestHeaders_makeSpan {self : DefaultMakeSpan} {enabled : Level → Bool}
    {req : Request H E B} (henabled : enabled self.level)
    (hheaders : self.includeHeaders) :
    (self.makeSpan enabled req).bind SpanFields.requestHeaders =
      some (headersField req.headers) := by
  rw [makeSpan, henabled]
  exact if_pos hheaders

/-- The layer opening a span for every request. -/
structure TraceLayer where
  makeSpan : DefaultMakeSpan := {}
  logOnFailure : Bool := true

namespace TraceLayer

/-- What a response leaves in the trace; `latency` is the time it took, as a text. -/
def completed (self : TraceLayer) (span : Span) (latency : Str) (response : Response H E B) :
    List TraceEvent :=
  match span with
  | none => []
  | some span =>
    let status := response.status.code
    let span := { span with statusCode := some status, latency := some latency }
    if 500 ≤ status ∧ status < 600 ∧ self.logOnFailure then
      [.response span .error "server error".toList]
    else if 400 ≤ status ∧ status < 500 then [.response span .warn "client error".toList]
    else [.response span .info "response".toList]

omit [Multimap H HeaderName HeaderValue] [Extensions E] in
theorem spans_completed (self : TraceLayer) (span : Span) (latency : Str)
    (response : Response H E B) : TraceEvent.spans (self.completed span latency response) = [] := by
  rcases span with - | span
  · rfl
  · rw [completed]
    split
    · rfl
    · split
      · rfl
      · rfl

/-- A request through the layer. -/
def call (self : TraceLayer) (enabled : Level → Bool) (latency : Str)
    (inner : Request H E B → Traced (Response H E B)) (req : Request H E B) :
    Traced (Response H E B) := do
  let span := self.makeSpan.makeSpan enabled req
  tell [TraceEvent.span span]
  let response ← inner req
  tell (self.completed span latency response)
  return response

end TraceLayer

/-! ### Sensitive headers -/

/-- The extension naming the headers that are not to be traced. -/
structure SensitiveHeaders where
  names : List HeaderName

/-- The layer that leaves the extension in every request. -/
structure SensitiveHeadersLayer where
  headers : List HeaderName

/-- A request through the layer. -/
def SensitiveHeadersLayer.call [Extensions.Slot E SensitiveHeaders] {m : Type → Type}
    (self : SensitiveHeadersLayer) (inner : Request H E B → m (Response H E B))
    (req : Request H E B) : m (Response H E B) :=
  inner { req with
    extensions := Extensions.Slot.insert req.extensions (SensitiveHeaders.mk self.headers) }

/-- Two requests with the same header lines, up to the values of the named headers. -/
structure Request.SameUpToValues (names : List HeaderName) (req₁ req₂ : Request H E B) : Prop
    extends req₁.SameExcept names req₂ where
  keys : Multimap.keys req₁.headers = Multimap.keys req₂.headers
  lines : ∀ name, (Multimap.getAll req₁.headers name).length =
    (Multimap.getAll req₂.headers name).length

section Spans

variable [Extensions.Slot E SensitiveHeaders]

/-- The spans made for a request that comes in through both layers. -/
def spansOf (sensitive : SensitiveHeadersLayer) (trace : TraceLayer) (enabled : Level → Bool)
    (latency : Str) (service : Request H E B → Response H E B) (req : Request H E B) :
    List Span :=
  TraceEvent.spans (sensitive.call
    (trace.call enabled latency fun req ↦ pure (service req)) req).run.2

/-- The one span is that of the request, whatever is listed as sensitive. -/
theorem spansOf_eq (sensitive : SensitiveHeadersLayer) (trace : TraceLayer)
    (enabled : Level → Bool) (latency : Str)
    (service : Request H E B → Response H E B) (req : Request H E B) :
    spansOf sensitive trace enabled latency service req =
      [trace.makeSpan.makeSpan enabled req] := by
  show TraceEvent.spans ([TraceEvent.span _] ++ ([] ++ (trace.completed _ latency _ ++ []))) = _
  rw [List.nil_append, List.append_nil, List.singleton_append]
  exact congrArg (List.cons _) (trace.spans_completed _ latency _)

omit [Extensions E] [Extensions.Slot E SensitiveHeaders] in
/-- Without headers on the list, or without a span, nothing can differ. -/
theorem makeSpan_eq (makeSpan : DefaultMakeSpan) (enabled : Level → Bool)
    {names : List HeaderName} {req₁ req₂ : Request H E B} (h : req₁.SameUpToValues names req₂)
    (hnames : enabled makeSpan.level = false ∨ names = []) :
    makeSpan.makeSpan enabled req₁ = makeSpan.makeSpan enabled req₂ := by
  rcases hnames with hdisabled | hnil
  · rw [DefaultMakeSpan.makeSpan, DefaultMakeSpan.makeSpan, hdisabled]
    rfl
  · have hiter : headersField req₁.headers = headersField req₂.headers := by
      rw [headersField, headersField, Multimap.iter_congr h.keys fun name _ ↦
        h.headers name (hnil ▸ List.not_mem_nil)]
    rw [DefaultMakeSpan.makeSpan, DefaultMakeSpan.makeSpan, h.method, h.uri, h.version, hiter]

/-- The request with one header line. -/
def requestWith (name : HeaderName) (value : HeaderValue) (body : B) : Request H E B where
  inner := ⟨.get, { path := ['/'] }, Multimap.insert Multimap.empty name value,
    Extensions.empty, body, .http11⟩
  extensions := Extensions.empty

omit [Extensions.Slot E SensitiveHeaders] in
theorem sameUpToValues_requestWith {names : List HeaderName} {name : HeaderName}
    (hname : name ∈ names) (value₁ value₂ : HeaderValue) (body : B) :
    (requestWith name value₁ body : Request H E B).SameUpToValues names
      (requestWith name value₂ body) where
  method := rfl
  uri := rfl
  headers other hother := by
    have hne : other ≠ name := fun h ↦ hother (h ▸ hname)
    show Multimap.getAll (Multimap.insert _ _ _) _ = Multimap.getAll (Multimap.insert _ _ _) _
    rw [Multimap.getAll_insert, Multimap.getAll_insert, if_neg hne, if_neg hne]
  httpExtensions := rfl
  body := rfl
  version := rfl
  extensions := rfl
  keys := by
    show Multimap.keys (Multimap.insert _ _ _) = Multimap.keys (Multimap.insert _ _ _)
    rw [Multimap.keys_insert_empty, Multimap.keys_insert_empty]
  lines other := by
    show (Multimap.getAll (Multimap.insert _ _ _) _).length =
      (Multimap.getAll (Multimap.insert _ _ _) _).length
    rw [Multimap.getAll_insert, Multimap.getAll_insert]
    split
    · rfl
    · rfl

omit [Extensions.Slot E SensitiveHeaders] in
theorem headersField_requestWith (name : HeaderName) (value : HeaderValue) (body : B) :
    headersField (requestWith name value body : Request H E B).headers =
      name.text ++ '=' :: value.toStr.getD ['?'] := by
  show headersField (Multimap.insert _ _ _) = _
  rw [headersField, Multimap.iter_insert_empty, List.map_singleton, List.intercalate_singleton]

/-- Requests that differ in the values of listed headers alone have the same spans, whatever the
service inside answers. -/
def Noninterfering (sensitive : SensitiveHeadersLayer) (trace : TraceLayer)
    (enabled : Level → Bool) (latency : Str)
    (service : Request H E B → Response H E B) : Prop :=
  ∀ req₁ req₂ : Request H E B, req₁.SameUpToValues sensitive.headers req₂ →
    spansOf sensitive trace enabled latency service req₁ =
      spansOf sensitive trace enabled latency service req₂

/-- **When the spans do not depend on the values of the listed headers**: the span is filtered out
altogether, or no header is listed. -/
theorem noninterfering_iff [FromBytes B] (sensitive : SensitiveHeadersLayer) (trace : TraceLayer)
    (hheaders : trace.makeSpan.includeHeaders) (enabled : Level → Bool)
    (latency : Str) (service : Request H E B → Response H E B) :
    Noninterfering sensitive trace enabled latency service ↔
      enabled trace.makeSpan.level = false ∨ sensitive.headers = [] := by
  simp only [Noninterfering, spansOf_eq, List.cons.injEq, and_true]
  refine ⟨fun h ↦ ?_, fun h req₁ req₂ hreq ↦ makeSpan_eq _ enabled hreq h⟩
  by_contra hleak
  obtain ⟨hdisabled, hne⟩ := not_or.1 hleak
  have henabled : enabled trace.makeSpan.level := eq_true_of_ne_false hdisabled
  obtain ⟨name, hname⟩ := List.exists_mem_of_ne_nil _ hne
  have hspan := h _ _ (sameUpToValues_requestWith hname (HeaderValue.fromStatic "a")
    (HeaderValue.fromStatic "b") (FromBytes.empty : B))
  -- The two values stand in the two fields.
  have hfield := congrArg (fun span : Span ↦ span.bind SpanFields.requestHeaders) hspan
  rw [DefaultMakeSpan.requestHeaders_makeSpan henabled hheaders,
    DefaultMakeSpan.requestHeaders_makeSpan henabled hheaders,
    headersField_requestWith, headersField_requestWith] at hfield
  have htext := List.append_cancel_left (Option.some.inj hfield)
  exact absurd htext (by decide)

/-- A trace with headers, of a service that answers everything with an empty 200. -/
private def plainService : Request (AssocList HeaderName HeaderValue) (Option SensitiveHeaders)
    (Body (AssocList HeaderName HeaderValue)) → Response (AssocList HeaderName HeaderValue)
      (Option SensitiveHeaders) (Body (AssocList HeaderName HeaderValue)) := fun _ ↦
  ⟨.ok, Multimap.empty, Extensions.empty, Body.empty⟩

theorem noninterfering_off :
    Noninterfering ⟨[HeaderName.cookie]⟩ { makeSpan := { includeHeaders := true } }
      (fun _ ↦ false) "1ms".toList plainService :=
  (noninterfering_iff _ _ rfl _ _ _).2 (.inl rfl)

/-- A listed cookie is found in the span. -/
theorem cookie_leaks :
    ¬ Noninterfering ⟨[HeaderName.cookie]⟩ { makeSpan := { includeHeaders := true } }
      (fun _ ↦ true) "1ms".toList plainService := by
  intro h
  have hspans := h _ _ (sameUpToValues_requestWith (List.mem_singleton_self _)
    (HeaderValue.fromStatic "sid=1") (HeaderValue.fromStatic "sid=2") Body.empty)
  exact absurd hspans (by decide)

end Spans
