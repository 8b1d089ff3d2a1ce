import Arvik.Core.Handler
import Arvik.Extract.Cookies
import Arvik.Extract.Multipart
import Arvik.Extract.Path
import Arvik.Static.Responses

/-!
# Extractors do not depend on each other

Extractors from the parts get them one after another, and each may change them for those after it.
So whether an extractor finds the same wherever it stands is a question about all the others. In the
framework only the extractors of cookie jars change anything: the first of them parses the `Cookie`
lines and leaves the jar in the extensions for the others.

## The veil

Two requests look alike (`SameApartJar`) if they agree in everything that can be read without naming
the type of the jar that is kept, which has no name outside the framework. A request is in order if
the jar that is kept in it, if any, is the one of its `Cookie` lines, as it is when the request
comes in with none. An extractor that only reads what is apart from the jar is steady
(`steady_reading`); an extractor of a jar is steady because the jar it would parse is the one it
finds (`steady_requestCookieJar`). So all extractors of the framework are (`Provided.steady`), and
those from the whole request see no more than the limits that stand in the extensions beside the jar
(`ProvidedLast.blind`).

## Stacks

In a stack of middleware functions around a handler, each with arguments of its own, the extractors
then find what each would have found in the request as it came, and only the order of the rejections
depends on their order (`applyAll_call_of_provided`). What is asked of the middleware functions is
that they do not name the jar either: they may read a request, change it and pass it on, if requests
that look alike stay alike, and in order.
-/

variable {S H E R A T C J : Type} [Multimap H HeaderName HeaderValue] [Extensions E]

/-! ### The extractors from the parts -/

/-- A part of the state of a router. -/
class FromRef (T S : Type) where
  fromRef : S → T

instance : FromRef T T := ⟨id⟩

/-- An extension is missing. -/
structure ExtensionRejection where
  typeName : Str

def ExtensionRejection.intoResponse (self : ExtensionRejection) : Response H E (Body H) :=
  rejectionResponse .internalServerError ("Missing request extension: ".toList ++ self.typeName)

structure MatchedPathRejection

def MatchedPathRejection.intoResponse (_self : MatchedPathRejection) : Response H E (Body H) :=
  (ResponseBuilder.new.status .internalServerError).body
    (Body.fromBytes (Text.utf8 "No matched path available".toList))

/-- What the server would know of a connection. -/
structure ConnectInfo (T : Type) where
  info : T

structure ConnectInfoRejection

def ConnectInfoRejection.intoResponse (_self : ConnectInfoRejection) : Response H E (Body H) :=
  (ResponseBuilder.new.status .internalServerError).body (Body.fromBytes (Text.utf8
    "Missing ConnectInfo. Did you configure the server to insert it?".toList))

/-- Why there is no typed header. -/
inductive TypedHeaderRejection
  | missing (name : Str)
  | decodeFailed (msg : Str)

def TypedHeaderRejection.toText : TypedHeaderRejection → Str
  | missing name => "Missing header: ".toList ++ name
  | decodeFailed msg => "Invalid header value: ".toList ++ msg

def TypedHeaderRejection.intoResponse (self : TypedHeaderRejection) : Response H E (Body H) :=
  rejectionResponse .badRequest self.toText

/-- Typed headers: a name, and a decoder of the lines under it. -/
structure HeaderType (A : Type) where
  name : HeaderName
  decode : List HeaderValue → Except Str A

namespace PartsExtractor

/-- An extractor that leaves the parts as they are. -/
def reading (read : S → RequestParts H E → Except R A) : PartsExtractor S H E R A :=
  fun state parts ↦ (read state parts, parts)

def method : PartsExtractor S H E Empty Method :=
  reading fun _ parts ↦ .ok parts.method

def uri : PartsExtractor S H E Empty Uri :=
  reading fun _ parts ↦ .ok parts.uri

def version : PartsExtractor S H E Empty Version :=
  reading fun _ parts ↦ .ok parts.version

def headerMap : PartsExtractor S H E Empty H :=
  reading fun _ parts ↦ .ok parts.headers

/-- The URI before it was rewritten, or else the current one. -/
def originalUri [Extensions.Slot E OriginalUri] : PartsExtractor S H E Empty OriginalUri :=
  reading fun _ parts ↦
    .ok ((Extensions.Slot.get parts.extensions : Option OriginalUri).getD ⟨parts.uri⟩)

def state [FromRef T S] : PartsExtractor S H E Empty T :=
  reading fun state _ ↦ .ok (FromRef.fromRef state)

/-- An entry of the framework extensions. -/
def fromExtensions [Extensions.Slot E T] (rejection : R) : PartsExtractor S H E R T :=
  reading fun _ parts ↦
    match (Extensions.Slot.get parts.extensions : Option T) with
    | some value => .ok value
    | none => .error rejection

def extension [Extensions.Slot E T] (typeName : Str) : PartsExtractor S H E ExtensionRejection T :=
  fromExtensions ⟨typeName⟩

def matchedPath [Extensions.Slot E MatchedPathExt] :
    PartsExtractor S H E MatchedPathRejection MatchedPathExt :=
  fromExtensions ⟨⟩

def connectInfo [Extensions.Slot E (ConnectInfo T)] :
    PartsExtractor S H E ConnectInfoRejection (ConnectInfo T) :=
  fromExtensions ⟨⟩

def path [Serde.FloatLib] [Extensions.Slot E PathParams] (target : PathTarget A) :
    PartsExtractor S H E PathRejection A :=
  reading fun _ parts ↦ Path.fromRequestParts target parts

def rawPathParams [Extensions.Slot E PathParams] :
    PartsExtractor S H E Empty (List (Str × Str)) :=
  reading fun _ parts ↦ .ok (RawPathParams.fromRequestParts parts)

/-- A value from the query, the empty one if there is none. -/
def query (fromStr : Str → Except Str A) : PartsExtractor S H E QueryRejection A :=
  reading fun _ parts ↦
    (fromStr (parts.uri.query.getD [])).mapError .deserializationFailed

def validatedQuery (fromStr : Str → Except Str A) (validate : A → Option ValidationErrors) :
    PartsExtractor S H E ValidationRejection A :=
  reading fun state parts ↦
    ((query (S := S) fromStr state parts).1.mapError .query).bind (validateValue validate)

def typedHeader (type : HeaderType A) : PartsExtractor S H E TypedHeaderRejection A :=
  reading fun _ parts ↦
    (type.decode (Multimap.getAll parts.headers type.name)).mapError fun e ↦
      if (Multimap.get parts.headers type.name).isNone then .missing type.name.text
      else .decodeFailed e

variable [CookieLib C] [JarLib J C] [Extensions.Slot E (CachedCookies J)]

def cookieJar : PartsExtractor S H E Empty (CookieJar J) :=
  fun _ parts ↦
    let (jar, parts) := CookieJar.fromRequestParts parts
    (.ok jar, parts)

/-- The jars that sign or encrypt come with a key from the state. -/
def keyedJar {Key Jar : Type} [FromRef Key S] (mk : J → Key → Jar) :
    PartsExtractor S H E Empty Jar :=
  fun state parts ↦
    let key := FromRef.fromRef state
    let (inner, parts) := requestCookieJar parts
    (.ok (mk inner key), parts)

end PartsExtractor

/-! ### Cookie jars cannot be seen -/

/-- Two requests are the same to all who do not look for the jar that is kept. -/
structure SameApartJar (J : Type) [Extensions.Slot E (CachedCookies J)]
    (parts parts' : RequestParts H E) : Prop where
  method : parts.method = parts'.method
  uri : parts.uri = parts'.uri
  headers : parts.headers = parts'.headers
  httpExtensions : parts.httpExtensions = parts'.httpExtensions
  version : parts.version = parts'.version
  extensions : ∀ (T : Type) [Extensions.Slot E T] [Extensions.Apart E T (CachedCookies J)],
    (Extensions.Slot.get parts.extensions : Option T) = Extensions.Slot.get parts'.extensions

section Jar

variable [CookieLib C] [JarLib J C] [Extensions.Slot E (CachedCookies J)]

/-- The jar that is kept in a request is in order if it is the one of its `Cookie` lines. -/
def jarVeil (H E J : Type) {C : Type} [Multimap H HeaderName HeaderValue] [Extensions E]
    [CookieLib C] [JarLib J C] [Extensions.Slot E (CachedCookies J)] :
    Veil (RequestParts H E) where
  Alike := SameApartJar J
  Fit parts := ∀ cached : CachedCookies J, Extensions.Slot.get parts.extensions = some cached →
    cached.jar = parseCookieHeader parts
  refl _ := ⟨rfl, rfl, rfl, rfl, rfl, fun _ ↦ rfl⟩
  trans h h' := ⟨h.method.trans h'.method, h.uri.trans h'.uri, h.headers.trans h'.headers,
    h.httpExtensions.trans h'.httpExtensions, h.version.trans h'.version,
    fun T ↦ (h.extensions T).trans (h'.extensions T)⟩

variable {parts parts' : RequestParts H E}

/-- A request that nobody looked for cookies in is in order. -/
theorem fit_of_get_eq_none
    (h : (Extensions.Slot.get parts.extensions : Option (CachedCookies J)) = none) :
    (jarVeil H E J).Fit parts := fun cached hcached ↦ by
  rw [h] at hcached
  cases hcached

theorem requestCookieJar_of_fit (h : (jarVeil H E J).Fit parts) :
    (requestCookieJar parts : J × RequestParts H E).1 = parseCookieHeader parts := by
  rw [requestCookieJar]
  rcases hcached : (Extensions.Slot.get parts.extensions : Option (CachedCookies J)) with - | cached
  · rfl
  · exact h cached hcached

/-- **The jar that is kept cannot be seen.** -/
theorem steady_requestCookieJar :
    (jarVeil H E J).Steady (requestCookieJar : RequestParts H E → J × RequestParts H E) where
  fit parts h := by
    rw [requestCookieJar]
    rcases hcached : (Extensions.Slot.get parts.extensions : Option (CachedCookies J))
      with - | cached
    · intro cached hget
      rw [Extensions.Slot.get_insert] at hget
      rw [← Option.some.inj hget]
      rfl
    · exact h
  alike parts _ := by
    rw [requestCookieJar]
    rcases (Extensions.Slot.get parts.extensions : Option (CachedCookies J)) with - | cached
    · exact ⟨rfl, rfl, rfl, rfl, rfl, fun T ↦ (Extensions.Apart.get_insert _ _).symm⟩
    · exact (jarVeil H E J).refl parts
  blind parts parts' h h' halike := by
    show (requestCookieJar parts : J × RequestParts H E).1 = (requestCookieJar parts').1
    rw [requestCookieJar_of_fit h, requestCookieJar_of_fit h', parseCookieHeader,
      parseCookieHeader, halike.headers]

end Jar

/-! ### The extractors of the framework -/

section Provided

variable [CookieLib C] [JarLib J C] [Extensions.Slot E (CachedCookies J)]

open PartsExtractor in
/-- The extractors from the parts that the framework provides. The type of the jar that is kept has
no name outside, so that nothing else extracts it. -/
inductive Provided (H E J : Type) {C : Type} [Multimap H HeaderName HeaderValue] [Extensions E]
    [CookieLib C] [JarLib J C] [Extensions.Slot E (CachedCookies J)] :
    ∀ {S R A : Type}, PartsExtractor S H E R A → Prop
  | method {S : Type} : Provided H E J (method (S := S))
  | uri {S : Type} : Provided H E J (uri (S := S))
  | version {S : Type} : Provided H E J (version (S := S))
  | headerMap {S : Type} : Provided H E J (headerMap (S := S))
  | originalUri {S : Type} [Extensions.Slot E OriginalUri]
      [Extensions.Apart E OriginalUri (CachedCookies J)] : Provided H E J (originalUri (S := S))
  | state {S T : Type} [FromRef T S] : Provided H E J (state (S := S) (T := T))
  | extension {S T : Type} [Extensions.Slot E T] [Extensions.Apart E T (CachedCookies J)]
      (typeName : Str) : Provided H E J (extension (S := S) (T := T) typeName)
  | matchedPath {S : Type} [Extensions.Slot E MatchedPathExt]
      [Extensions.Apart E MatchedPathExt (CachedCookies J)] : Provided H E J (matchedPath (S := S))
  | connectInfo {S T : Type} [Extensions.Slot E (ConnectInfo T)]
      [Extensions.Apart E (ConnectInfo T) (CachedCookies J)] :
      Provided H E J (connectInfo (S := S) (T := T))
  | path {S A : Type} [Serde.FloatLib] [Extensions.Slot E PathParams]
      [Extensions.Apart E PathParams (CachedCookies J)] (target : PathTarget A) :
      Provided H E J (path (S := S) target)
  | rawPathParams {S : Type} [Extensions.Slot E PathParams]
      [Extensions.Apart E PathParams (CachedCookies J)] : Provided H E J (rawPathParams (S := S))
  | query {S A : Type} (fromStr : Str → Except Str A) : Provided H E J (query (S := S) fromStr)
  | validatedQuery {S A : Type} (fromStr : Str → Except Str A)
      (validate : A → Option ValidationErrors) :
      Provided H E J (validatedQuery (S := S) fromStr validate)
  | typedHeader {S A : Type} (type : HeaderType A) : Provided H E J (typedHeader (S := S) type)
  | cookieJar {S : Type} : Provided H E J (cookieJar (S := S) (J := J))
  | keyedJar {S Key Jar : Type} [FromRef Key S] (mk : J → Key → Jar) :
      Provided H E J (keyedJar (S := S) mk)
  | option {S R A : Type} {extractor : PartsExtractor S H E R A}
      (h : Provided H E J extractor) : Provided H E J extractor.option
  | result {S R A : Type} {extractor : PartsExtractor S H E R A}
      (h : Provided H E J extractor) : Provided H E J extractor.result

/-- An extractor that reads what is apart from the jar is steady. -/
theorem steady_reading {read : S → RequestParts H E → Except R A} {state : S}
    (h : ∀ parts parts', SameApartJar J parts parts' → read state parts = read state parts') :
    (jarVeil H E J).Steady (PartsExtractor.reading read state) := by
  have hblind : (jarVeil H E J).Blind (read state) := fun parts parts' _ _ ↦ h parts parts'
  exact hblind.steady

theorem steady_fromExtensions [Extensions.Slot E T] [Extensions.Apart E T (CachedCookies J)]
    (rejection : R) (state : S) : (jarVeil H E J).Steady
      (PartsExtractor.fromExtensions (H := H) (T := T) rejection state) :=
  steady_reading fun parts parts' halike ↦ by rw [halike.extensions T]

/-- **The extractors of the framework are steady.** -/
theorem Provided.steady {extractor : PartsExtractor S H E R A} (h : Provided H E J extractor)
    (state : S) : (jarVeil H E J).Steady (extractor state) := by
  induction h with
  | method => exact steady_reading fun parts parts' halike ↦ by rw [halike.method]
  | uri => exact steady_reading fun parts parts' halike ↦ by rw [halike.uri]
  | version => exact steady_reading fun parts parts' halike ↦ by rw [halike.version]
  | headerMap => exact steady_reading fun parts parts' halike ↦ by rw [halike.headers]
  | originalUri =>
    exact steady_reading fun parts parts' halike ↦ by
      rw [halike.extensions OriginalUri, halike.uri]
  | state => exact steady_reading fun _ _ _ ↦ rfl
  | extension typeName => exact steady_fromExtensions _ state
  | matchedPath => exact steady_fromExtensions _ state
  | connectInfo => exact steady_fromExtensions _ state
  | path target =>
    exact steady_reading fun parts parts' halike ↦ by
      rw [Path.fromRequestParts, Path.fromRequestParts, halike.extensions PathParams]
  | rawPathParams =>
    exact steady_reading fun parts parts' halike ↦ by
      rw [RawPathParams.fromRequestParts, RawPathParams.fromRequestParts,
        halike.extensions PathParams]
  | query fromStr => exact steady_reading fun parts parts' halike ↦ by rw [halike.uri]
  | validatedQuery fromStr validate =>
    exact steady_reading fun parts parts' halike ↦ by
      show (((fromStr (parts.uri.query.getD [])).mapError QueryRejection.deserializationFailed
        ).mapError ValidationRejection.query).bind _ = _
      rw [halike.uri]
      rfl
  | typedHeader type => exact steady_reading fun parts parts' halike ↦ by rw [halike.headers]
  | cookieJar =>
    have hjar : (jarVeil H E J).Steady (requestCookieJar (J := J)) := steady_requestCookieJar
    exact hjar.map fun jar ↦ (Except.ok ⟨jar⟩ : Except Empty (CookieJar J))
  | @keyedJar Key Jar _ mk =>
    have hjar : (jarVeil H E J).Steady (requestCookieJar (J := J)) := steady_requestCookieJar
    exact hjar.map fun jar ↦ (Except.ok (mk jar (FromRef.fromRef state)) : Except Empty Jar)
  | option _ ih => exact ih.map fun extracted ↦ Except.ok extracted.toOption
  | result _ ih => exact ih.map Except.ok

/-- All arguments from the parts are extracted by extractors of the framework. -/
def Arguments.AllProvided (J : Type) {C : Type} [CookieLib C] [JarLib J C]
    [Extensions.Slot E (CachedCookies J)] {B As : Type} : Arguments S H E B As → Prop
  | .nil => True
  | .cons extractor _ rest => Provided H E J extractor ∧ rest.AllProvided J

theorem Arguments.AllProvided.allSteady {B As : Type} {arguments : Arguments S H E B As}
    (h : arguments.AllProvided J) (state : S) : arguments.AllSteady (jarVeil H E J) state := by
  induction arguments with
  | nil => trivial
  | cons extractor intoResponse rest ih => exact ⟨h.1.steady state, ih h.2⟩

/-- The extractors from the whole request that the framework provides, the request itself and
WebSocket upgrades apart. -/
inductive ProvidedLast (H E J : Type) {C : Type} [Multimap H HeaderName HeaderValue] [Extensions E]
    [CookieLib C] [JarLib J C] [Extensions.Slot E (CachedCookies J)] :
    ∀ {S R A : Type}, (S → Request H E (Body H) → Except R A) → Prop
  | parts {S R A : Type} {extractor : PartsExtractor S H E R A} (h : Provided H E J extractor) :
      ProvidedLast H E J extractor.fromRequest
  | nothing {S : Type} : ProvidedLast H E J fun (_ : S) _ ↦ (Except.ok () : Except Empty Unit)
  | body {S : Type} : ProvidedLast H E J fun (_ : S) req ↦ (Except.ok req.body : Except Empty _)
  | bytes {S : Type} [Extensions.Slot E DefaultBodyLimit]
      [Extensions.Apart E DefaultBodyLimit (CachedCookies J)] :
      ProvidedLast H E J fun (_ : S) ↦ Bytes.fromRequest
  | string {S : Type} [Extensions.Slot E DefaultBodyLimit]
      [Extensions.Apart E DefaultBodyLimit (CachedCookies J)] :
      ProvidedLast H E J fun (_ : S) ↦ Str.fromRequest
  | json {S A : Type} [Extensions.Slot E DefaultBodyLimit]
      [Extensions.Apart E DefaultBodyLimit (CachedCookies J)] [MimeLib]
      (fromSlice : Bytes → Except Str A) :
      ProvidedLast H E J fun (_ : S) ↦ Json.fromRequest fromSlice
  | form {S A : Type} [Extensions.Slot E DefaultBodyLimit]
      [Extensions.Apart E DefaultBodyLimit (CachedCookies J)] [MimeLib]
      (fromBytes : Bytes → Except Str A) :
      ProvidedLast H E J fun (_ : S) ↦ Form.fromRequest fromBytes
  | validatedJson {S A : Type} [Extensions.Slot E DefaultBodyLimit]
      [Extensions.Apart E DefaultBodyLimit (CachedCookies J)] [MimeLib]
      (fromSlice : Bytes → Except Str A) (validate : A → Option ValidationErrors) :
      ProvidedLast H E J fun (_ : S) ↦ ValidatedJson.fromRequest fromSlice validate
  | validatedForm {S A : Type} [Extensions.Slot E DefaultBodyLimit]
      [Extensions.Apart E DefaultBodyLimit (CachedCookies J)] [MimeLib]
      (fromBytes : Bytes → Except Str A) (validate : A → Option ValidationErrors) :
      ProvidedLast H E J fun (_ : S) ↦ ValidatedForm.fromRequest fromBytes validate
  | multipart {S : Type} [MulterLib] [Extensions.Slot E MultipartConfig]
      [Extensions.Apart E MultipartConfig (CachedCookies J)]
      [Extensions.Slot E MultipartConstraints]
      [Extensions.Apart E MultipartConstraints (CachedCookies J)] :
      ProvidedLast H E J fun (_ : S) ↦ Multipart.fromRequest

section Last

variable [Extensions.Slot E DefaultBodyLimit]
  [Extensions.Apart E DefaultBodyLimit (CachedCookies J)] {parts parts' : RequestParts H E}

omit [Multimap H HeaderName HeaderValue] in
/-- The body is read under the same limit. -/
theorem readBody_alike (h : SameApartJar J parts parts') (body : Body H) :
    readBody (Request.fromRequestParts parts body) =
      readBody (Request.fromRequestParts parts' body) := by
  show body.toBytesLimited (resolveLimit parts.extensions) =
    body.toBytesLimited (resolveLimit parts'.extensions)
  rw [resolveLimit, resolveLimit, h.extensions DefaultBodyLimit]

omit [Multimap H HeaderName HeaderValue] in
theorem bufferedFromRequest_alike (h : SameApartJar J parts parts') (body : Body H)
    (accepts : H → Bool) (notAccepted tooLarge : R) (readFailed deserializationFailed : Str → R)
    (deserialize : Bytes → Except Str A) :
    bufferedFromRequest accepts notAccepted tooLarge readFailed deserializationFailed deserialize
        (Request.fromRequestParts parts body) =
      bufferedFromRequest accepts notAccepted tooLarge readFailed deserializationFailed deserialize
        (Request.fromRequestParts parts' body) := by
  rw [bufferedFromRequest, bufferedFromRequest, readBody_alike h body]
  show (if !accepts parts.headers then _ else _) = if !accepts parts'.headers then _ else _
  rw [h.headers]

end Last

theorem multipartFromRequest_alike [MulterLib] [Extensions.Slot E MultipartConfig]
    [Extensions.Apart E MultipartConfig (CachedCookies J)] [Extensions.Slot E MultipartConstraints]
    [Extensions.Apart E MultipartConstraints (CachedCookies J)] {parts parts' : RequestParts H E}
    (h : SameApartJar J parts parts') (body : Body H) :
    Multipart.fromRequest (Request.fromRequestParts parts body) =
      Multipart.fromRequest (Request.fromRequestParts parts' body) := by
  have hconfig : Multipart.configOf parts.extensions = Multipart.configOf parts'.extensions := by
    rw [Multipart.configOf, Multipart.configOf, h.extensions MultipartConfig,
      h.extensions MultipartConstraints]
  have hvalid (config : MultipartConfig) :
      validateMultipartRequest (Request.fromRequestParts parts body) config =
        validateMultipartRequest (Request.fromRequestParts parts' body) config := by
    have hheaders : (Request.fromRequestParts parts body).headers =
        (Request.fromRequestParts parts' body).headers := h.headers
    rw [validateMultipartRequest, validateMultipartRequest, hheaders]
  show Multipart.fromRequestWithConfig _ (Multipart.configOf parts.extensions) =
    Multipart.fromRequestWithConfig _ (Multipart.configOf parts'.extensions)
  rw [hconfig, Multipart.fromRequestWithConfig, Multipart.fromRequestWithConfig, hvalid]
  rfl

/-- The last extractor does not see the jar that is kept. -/
theorem ProvidedLast.blind {last : S → Request H E (Body H) → Except R A}
    (h : ProvidedLast H E J last) (state : S) (body : Body H) :
    (jarVeil H E J).Blind fun parts ↦ last state (Request.fromRequestParts parts body) := by
  intro parts parts' hparts hparts' halike
  show last state (Request.fromRequestParts parts body) =
    last state (Request.fromRequestParts parts' body)
  cases h with
  | parts h => exact (h.steady state).blind parts parts' hparts hparts' halike
  | nothing => rfl
  | body => rfl
  | bytes => exact congrArg (Except.mapError bodyLimitRejection) (readBody_alike halike body)
  | string =>
    exact congrArg (fun read ↦ Str.ofBody (read.mapError bodyLimitRejection))
      (readBody_alike halike body)
  | json fromSlice => exact bufferedFromRequest_alike halike body ..
  | form fromBytes => exact bufferedFromRequest_alike halike body ..
  | validatedJson fromSlice validate =>
    exact congrArg (fun extracted ↦ (extracted.mapError ValidationRejection.json).bind
      (validateValue validate)) (bufferedFromRequest_alike halike body ..)
  | validatedForm fromBytes validate =>
    exact congrArg (fun extracted ↦ (extracted.mapError ValidationRejection.form).bind
      (validateValue validate)) (bufferedFromRequest_alike halike body ..)
  | multipart => exact multipartFromRequest_alike halike body

/-! ### Stacks of the framework -/

variable {m : Type → Type} [Monad m]

/-- **Extractors do not depend on each other**: in a stack of middleware functions that cannot see
the jar that is kept, around a handler, all with extractors of the framework, each extractor finds
what it would have found in the request as it came. -/
theorem applyAll_call_of_provided {handler : Handler S H E (Body H) m}
    (harguments : handler.arguments.AllProvided J) (hlast : ProvidedLast H E J handler.last)
    {layers : List (FromFnLayer H E (Body H) m)}
    (hlayers : ∀ layer ∈ layers,
      layer.f.arguments.AllProvided J ∧ layer.f.Blind (jarVeil H E J)) (state : S)
    {req : Request H E (Body H)} (hreq : (jarVeil H E J).Fit req.intoRequestParts.1) :
    Layering.applyAll FromFnLayer.call (fun req ↦ handler.call req state) layers req =
      Layering.applyAll FromFnLayer.callApart (fun req ↦ handler.callApart req state) layers
        req := by
  have hhandler := Handler.answerAlike (harguments.allSteady state) (hlast.blind state)
  refine FromFnLayer.applyAll_call_eq (fun layer hlayer ↦ ?_) hhandler hreq
  obtain ⟨hprovided, hblind⟩ := hlayers layer hlayer
  exact ⟨hprovided.allSteady layer.state, hblind⟩

end Provided

/-- Answers with the session of the jar. -/
def showSession : Handler Unit (AssocList HeaderName HeaderValue) (Option (CachedCookies PlainJar))
    (Body (AssocList HeaderName HeaderValue)) Id where
  arguments := .cons (PartsExtractor.cookieJar (J := PlainJar)) Empty.elim
    (.cons PartsExtractor.method Empty.elim .nil)
  last _ _ := .ok ()
  rejected := Empty.elim
  function := fun (jar, _, _) () ↦
    ((jar.get "sid".toList).map CookieLib.value).getD []
  intoResponse session := ResponseBuilder.new.body (Body.fromBytes (Text.utf8 session))

/-- Takes the jar first, and passes the requests with method `GET` on. -/
def takeJar : FromFnLayer (AssocList HeaderName HeaderValue) (Option (CachedCookies PlainJar))
    (Body (AssocList HeaderName HeaderValue)) Id where
  State := Unit
  f :=
    { arguments := .cons (PartsExtractor.cookieJar (J := PlainJar)) Empty.elim .nil
      function := fun _ req next ↦
        if req.method = .get then next req
        else (ResponseBuilder.new.status .methodNotAllowed).body Body.empty
      intoResponse := id }
  state := ()

theorem applyAll_call_showSession :
    let req : Request (AssocList HeaderName HeaderValue) (Option (CachedCookies PlainJar))
        (Body (AssocList HeaderName HeaderValue)) :=
      Request.fromRequestParts ⟨.get, { path := "/".toList },
        ⟨[(.cookie, .fromStatic "sid=31d4")]⟩, none, none, .http11⟩ Body.empty
    Layering.applyAll FromFnLayer.call (fun req ↦ showSession.call req ()) [takeJar] req =
      Layering.applyAll FromFnLayer.callApart (fun req ↦ showSession.callApart req ()) [takeJar]
        req := by
  intro req
  have hshow : showSession.arguments.AllProvided PlainJar := ⟨.cookieJar, .method, trivial⟩
  have htake : takeJar.f.arguments.AllProvided PlainJar := ⟨.cookieJar, trivial⟩
  have hblind : takeJar.f.Blind (jarVeil _ _ PlainJar) := by
    intro values next next' hnext parts parts' body hparts hparts' halike
    show (if parts'.method = .get then next _ else _) = if parts.method = .get then next' _ else _
    rw [halike.method, hnext parts parts' body hparts hparts' halike]
  exact applyAll_call_of_provided hshow .nothing
    (List.forall_mem_singleton.2 ⟨htake, hblind⟩) () (fit_of_get_eq_none rfl)
