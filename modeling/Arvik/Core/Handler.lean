import Arvik.Core.IntoResponseParts
import Arvik.Foundation.Layering
import Arvik.Foundation.Unseen

/-!
# Handlers and middleware functions

A handler has its arguments extracted from the request, one after another: all but the last from the
parts of the request, which an extractor may change for those after it, and the last one from the
request put together again. The first rejection is the answer. A middleware function has all its
arguments extracted from the parts, and gets the request put together again and the service inside.

Extractors whose changes cannot be seen extract what each would have extracted from the request as
it came (`Arguments.extract_eq`).

Over a whole stack this is a statement about two services, the one that threads the changed parts
through and the one that does not: they answer alike (`AnswerAlike`) if the first, given any request
that looks like the one the second is given, has the same answer. A handler with such extractors
answers alike in both ways (`Handler.answerAlike`). A layer keeps it if its function cannot see the
changes either (`MiddlewareFn.Blind`): with services inside that answer alike, it does the same with
requests that look alike. It may read a request, change it and pass it on as it likes, so long as
what it passes on looks alike again. The induction over the layers is then `applyAll_call_eq`.
-/

/-! ### Extractors -/

/-- The extractors from the parts of a request; the state is that of the router. -/
abbrev PartsExtractor (S H E R A : Type) :=
  S → RequestParts H E → Except R A × RequestParts H E

variable {S H E B R A : Type}

namespace PartsExtractor

/-- `Option<T>` extracts nothing where `T` rejects. -/
def option (extractor : PartsExtractor S H E R A) : PartsExtractor S H E Empty (Option A) :=
  fun state parts ↦ (.ok (extractor state parts).1.toOption, (extractor state parts).2)

/-- `Result<T, T::Rejection>` extracts the rejection. -/
def result (extractor : PartsExtractor S H E R A) : PartsExtractor S H E Empty (Except R A) :=
  fun state parts ↦ (.ok (extractor state parts).1, (extractor state parts).2)

/-- Every extractor from the parts is one from the request: the body is dropped. -/
def fromRequest (extractor : PartsExtractor S H E R A) (state : S) (req : Request H E B) :
    Except R A :=
  (extractor state req.intoRequestParts.1).1

end PartsExtractor

/-- The arguments that are extracted from the parts, each with how its rejection is answered. -/
inductive Arguments (S H E B : Type) : Type → Type 1
  | nil : Arguments S H E B Unit
  | cons {R A As : Type} (extractor : PartsExtractor S H E R A)
      (intoResponse : R → Response H E B) (rest : Arguments S H E B As) :
      Arguments S H E B (A × As)

namespace Arguments

/-- Run the extractors in the order of the arguments. -/
def extract {As : Type} : Arguments S H E B As → S → RequestParts H E →
    Except (Response H E B) As × RequestParts H E
  | .nil, _, parts => (.ok (), parts)
  | .cons extractor intoResponse rest, state, parts =>
    match extractor state parts with
    | (.error rejection, parts) => (.error (intoResponse rejection), parts)
    | (.ok value, parts) =>
      let (values, parts) := rest.extract state parts
      (values.map (value, ·), parts)

/-- What each extractor makes of the request as it came. -/
def extractApart {As : Type} : Arguments S H E B As → S → RequestParts H E →
    Except (Response H E B) As
  | .nil, _, _ => .ok ()
  | .cons extractor intoResponse rest, state, parts =>
    match (extractor state parts).1 with
    | .error rejection => .error (intoResponse rejection)
    | .ok value => (rest.extractApart state parts).map (value, ·)

/-- All extractors are steady. -/
def AllSteady (F : Veil (RequestParts H E)) (state : S) {As : Type} :
    Arguments S H E B As → Prop
  | .nil => True
  | .cons extractor _ rest => F.Steady (extractor state) ∧ rest.AllSteady F state

/-- What is done once the first argument has been extracted. -/
def proceed {As : Type} (intoResponse : R → Response H E B) (rest : Arguments S H E B As)
    (state : S) :
    Except R A → RequestParts H E → Except (Response H E B) (A × As) × RequestParts H E
  | .error rejection, parts => (.error (intoResponse rejection), parts)
  | .ok value, parts =>
    ((rest.extract state parts).1.map (value, ·), (rest.extract state parts).2)

theorem extract_cons {As : Type} (extractor : PartsExtractor S H E R A)
    (intoResponse : R → Response H E B) (rest : Arguments S H E B As) (state : S)
    (parts : RequestParts H E) :
    (cons extractor intoResponse rest).extract state parts =
      rest.proceed intoResponse state (extractor state parts).1 (extractor state parts).2 := by
  rw [extract]
  rcases extractor state parts with ⟨rejection | value, parts⟩
  · rfl
  · rfl

variable {F : Veil (RequestParts H E)} {state : S}

theorem steady_proceed {As : Type} {intoResponse : R → Response H E B}
    {rest : Arguments S H E B As} (h : F.Steady (rest.extract state)) (extracted : Except R A) :
    F.Steady (rest.proceed intoResponse state extracted) := by
  rcases extracted with rejection | value
  · exact Veil.steady_pure (Except.error (intoResponse rejection))
  · exact h.map (Except.map (value, ·))

/-- Extracting all arguments is as steady as each extractor. -/
theorem AllSteady.extract {As : Type} {arguments : Arguments S H E B As}
    (h : arguments.AllSteady F state) : F.Steady (arguments.extract state) := by
  induction arguments with
  | nil => exact Veil.steady_pure (Except.ok ())
  | @cons R A As extractor intoResponse rest ih =>
    have hrest : ∀ extracted : Except R A, F.Steady (rest.proceed intoResponse state extracted) :=
      steady_proceed (ih h.2)
    have heq : (cons extractor intoResponse rest).extract state = fun parts ↦
        rest.proceed intoResponse state (extractor state parts).1 (extractor state parts).2 :=
      funext (extract_cons extractor intoResponse rest state)
    rw [heq]
    exact h.1.bind hrest

/-- **Steady extractors do not depend on each other**: together they extract what each would have
extracted from the request as it came. -/
theorem extract_eq {As : Type} {arguments : Arguments S H E B As}
    (h : arguments.AllSteady F state) {parts : RequestParts H E} (hparts : F.Fit parts) :
    (arguments.extract state parts).1 = arguments.extractApart state parts := by
  induction arguments with
  | nil => rfl
  | @cons R A As extractor intoResponse rest ih =>
    have hrest : ∀ extracted : Except R A, F.Steady (rest.proceed intoResponse state extracted) :=
      steady_proceed h.2.extract
    rw [extract_cons, h.1.fst_bind hrest hparts, extractApart]
    rcases (extractor state parts).1 with rejection | value
    · rfl
    · exact congrArg (Except.map (value, ·)) (ih h.2)

end Arguments

/-! ### Handlers -/

section Handler

variable {m : Type → Type} [Monad m]

/-- A handler: its arguments, the extractor of the last one from the whole request, and the
function, whose result is turned into a response. A handler without arguments extracts nothing as
its last one. -/
structure Handler (S H E B : Type) (m : Type → Type) : Type 1 where
  {Args : Type}
  arguments : Arguments S H E B Args
  {Last : Type}
  {Rejection : Type}
  last : S → Request H E B → Except Rejection Last
  rejected : Rejection → Response H E B
  {Res : Type}
  function : Args → Last → m Res
  intoResponse : Res → Response H E B

namespace Handler

/-- Call a handler. -/
def call (self : Handler S H E B m) (req : Request H E B) (state : S) : m (Response H E B) :=
  let (parts, body) := req.intoRequestParts
  match self.arguments.extract state parts with
  | (.error response, _) => pure response
  | (.ok values, parts) =>
    match self.last state (Request.fromRequestParts parts body) with
    | .error rejection => pure (self.rejected rejection)
    | .ok last => self.intoResponse <$> self.function values last

/-- What is done once the arguments from the parts are extracted. -/
def proceed (self : Handler S H E B m) (state : S) (req : Request H E B) :
    Except (Response H E B) self.Args → m (Response H E B)
  | .error response => pure response
  | .ok values =>
    match self.last state req with
    | .error rejection => pure (self.rejected rejection)
    | .ok last => self.intoResponse <$> self.function values last

/-- Call a handler with what its extractors make of the request as it came. -/
def callApart (self : Handler S H E B m) (req : Request H E B) (state : S) : m (Response H E B) :=
  self.proceed state req (self.arguments.extractApart state req.intoRequestParts.1)

theorem call_eq (self : Handler S H E B m) (req : Request H E B) (state : S) :
    self.call req state =
      self.proceed state (Request.fromRequestParts
        (self.arguments.extract state req.intoRequestParts.1).2 req.body)
          (self.arguments.extract state req.intoRequestParts.1).1 := by
  rw [call]
  show (match self.arguments.extract state req.intoRequestParts.1 with
    | (.error response, _) => pure response
    | (.ok values, parts) => _) = _
  rcases self.arguments.extract state req.intoRequestParts.1 with ⟨response | values, parts⟩
  · rfl
  · rfl

end Handler

/-! ### Middleware functions -/

/-- A middleware function: its arguments, and the function of these, the request and the service
inside. -/
structure MiddlewareFn (S H E B : Type) (m : Type → Type) : Type 1 where
  {Args : Type}
  arguments : Arguments S H E B Args
  {Res : Type}
  function : Args → Request H E B → (Request H E B → m (Response H E B)) → m Res
  intoResponse : Res → Response H E B

/-- Execute a middleware function. -/
def MiddlewareFn.call (self : MiddlewareFn S H E B m) (req : Request H E B) (state : S)
    (next : Request H E B → m (Response H E B)) : m (Response H E B) :=
  let (parts, body) := req.intoRequestParts
  match self.arguments.extract state parts with
  | (.error response, _) => pure response
  | (.ok values, parts) =>
    self.intoResponse <$> self.function values (Request.fromRequestParts parts body) next

/-- What is done once the arguments are extracted. -/
def MiddlewareFn.proceed (self : MiddlewareFn S H E B m)
    (next : Request H E B → m (Response H E B)) (req : Request H E B) :
    Except (Response H E B) self.Args → m (Response H E B)
  | .error response => pure response
  | .ok values => self.intoResponse <$> self.function values req next

/-- Execute a middleware function with what its extractors make of the request as it came. -/
def MiddlewareFn.callApart (self : MiddlewareFn S H E B m) (req : Request H E B) (state : S)
    (next : Request H E B → m (Response H E B)) : m (Response H E B) :=
  self.proceed next req (self.arguments.extractApart state req.intoRequestParts.1)

theorem MiddlewareFn.call_eq (self : MiddlewareFn S H E B m) (req : Request H E B) (state : S)
    (next : Request H E B → m (Response H E B)) :
    self.call req state next =
      self.proceed next (Request.fromRequestParts
        (self.arguments.extract state req.intoRequestParts.1).2 req.body)
          (self.arguments.extract state req.intoRequestParts.1).1 := by
  rw [call]
  show (match self.arguments.extract state req.intoRequestParts.1 with
    | (.error response, _) => pure response
    | (.ok values, parts) => _) = _
  rcases self.arguments.extract state req.intoRequestParts.1 with ⟨response | values, parts⟩
  · rfl
  · rfl

/-- The layer of a middleware function, with its state. -/
structure FromFnLayer (H E B : Type) (m : Type → Type) : Type 1 where
  {State : Type}
  f : MiddlewareFn State H E B m
  state : State

namespace FromFnLayer

/-- A request through the layer. -/
def call (self : FromFnLayer H E B m) (inner : Request H E B → m (Response H E B))
    (req : Request H E B) : m (Response H E B) :=
  self.f.call req self.state inner

/-- A request through the layer, as it came. -/
def callApart (self : FromFnLayer H E B m) (inner : Request H E B → m (Response H E B))
    (req : Request H E B) : m (Response H E B) :=
  self.f.callApart req self.state inner

end FromFnLayer

/-! ### Stacks -/

variable {F : Veil (RequestParts H E)}

/-- Two services answer alike to requests with parts in order that look alike. -/
def AnswerAlike {R : Type} (F : Veil (RequestParts H E)) (f g : Request H E B → R) : Prop :=
  ∀ parts parts' body, F.Fit parts → F.Fit parts' → F.Alike parts parts' →
    f (Request.fromRequestParts parts' body) = g (Request.fromRequestParts parts body)

/-- The function of a middleware cannot tell requests that look alike from each other, nor can the
service inside by the requests it is passed. -/
def MiddlewareFn.Blind (F : Veil (RequestParts H E)) (self : MiddlewareFn S H E B m) : Prop :=
  ∀ values next next', AnswerAlike F next next' →
    AnswerAlike F (fun req ↦ self.function values req next) fun req ↦
      self.function values req next'

/-- What a handler or a middleware function gets to see of requests that look alike. -/
theorem Arguments.AllSteady.extract_alike {As : Type} {arguments : Arguments S H E B As} {state : S}
    (h : arguments.AllSteady F state) {parts parts' : RequestParts H E} (hparts : F.Fit parts)
    (hparts' : F.Fit parts') (halike : F.Alike parts parts') :
    (arguments.extract state parts').1 = arguments.extractApart state parts ∧
      F.Fit (arguments.extract state parts').2 ∧
        F.Alike parts (arguments.extract state parts').2 := by
  refine ⟨?_, h.extract.fit parts' hparts', F.trans halike (h.extract.alike parts' hparts')⟩
  rw [← Arguments.extract_eq h hparts]
  exact (h.extract.blind parts parts' hparts hparts' halike).symm

/-- A handler with steady extractors, the last one blind, answers as to the request as it came. -/
theorem Handler.answerAlike {handler : Handler S H E B m} {state : S}
    (h : handler.arguments.AllSteady F state)
    (hlast : ∀ body, F.Blind fun parts ↦
      handler.last state (Request.fromRequestParts parts body)) :
    AnswerAlike F (fun req ↦ handler.call req state) fun req ↦ handler.callApart req state := by
  intro parts parts' body hparts hparts' halike
  obtain ⟨hvalues, hfit, hsame⟩ := h.extract_alike hparts hparts' halike
  have hread := hlast body parts _ hparts hfit hsame
  show handler.call (Request.fromRequestParts parts' body) state =
    handler.proceed state (Request.fromRequestParts parts body)
      (handler.arguments.extractApart state parts)
  rw [Handler.call_eq, ← hvalues]
  show handler.proceed state (Request.fromRequestParts
    (handler.arguments.extract state parts').2 body) (handler.arguments.extract state parts').1 = _
  rcases (handler.arguments.extract state parts').1 with response | values
  · rfl
  · rw [Handler.proceed, Handler.proceed]
    exact congrArg (fun last ↦ match last with
      | .error rejection => pure (handler.rejected rejection)
      | .ok last => handler.intoResponse <$> handler.function values last) hread.symm

/-- A layer with steady extractors and a blind function keeps what the service inside does. -/
theorem FromFnLayer.answerAlike {layer : FromFnLayer H E B m}
    (h : layer.f.arguments.AllSteady F layer.state) (hblind : layer.f.Blind F)
    {f g : Request H E B → m (Response H E B)} (hfg : AnswerAlike F f g) :
    AnswerAlike F (layer.call f) (layer.callApart g) := by
  intro parts parts' body hparts hparts' halike
  obtain ⟨hvalues, hfit, hsame⟩ := h.extract_alike hparts hparts' halike
  show layer.f.call (Request.fromRequestParts parts' body) layer.state f =
    layer.f.proceed g (Request.fromRequestParts parts body)
      (layer.f.arguments.extractApart layer.state parts)
  rw [MiddlewareFn.call_eq, ← hvalues]
  show layer.f.proceed f (Request.fromRequestParts
    (layer.f.arguments.extract layer.state parts').2 body)
      (layer.f.arguments.extract layer.state parts').1 = _
  rcases (layer.f.arguments.extract layer.state parts').1 with response | values
  · rfl
  · have hfunction := hblind values f g hfg parts _ body hparts hfit hsame
    exact congrArg (layer.f.intoResponse <$> ·) hfunction

/-- **A stack of middleware with steady extractors** and blind functions answers as if every
extractor in it and inside read the request as it came. -/
theorem FromFnLayer.applyAll_call_eq {layers : List (FromFnLayer H E B m)}
    (hlayers : ∀ layer ∈ layers, layer.f.arguments.AllSteady F layer.state ∧ layer.f.Blind F)
    {f g : Request H E B → m (Response H E B)} (hfg : AnswerAlike F f g) {req : Request H E B}
    (hreq : F.Fit req.intoRequestParts.1) :
    Layering.applyAll call f layers req = Layering.applyAll callApart g layers req := by
  have halike : AnswerAlike F (Layering.applyAll call f layers)
      (Layering.applyAll callApart g layers) := by
    clear hreq
    induction layers generalizing f g with
    | nil => exact hfg
    | cons layer layers ih =>
      obtain ⟨⟨hsteady, hblind⟩, hlayers⟩ := List.forall_mem_cons.1 hlayers
      exact ih hlayers (answerAlike hsteady hblind hfg)
  exact halike _ _ req.body hreq hreq (F.refl _)

end Handler
