import Arvik.Core.IntoResponseParts
import Arvik.Foundation.Percent
import Mathlib.Data.List.TakeWhile

/-!
# Cookie jars

The plain cookie jar: read from the `Cookie` lines of a request, written back as `Set-Cookie`
headers through the response parts.

The cookie library is a parameter, in two classes that carry what the framework relies on. A cookie
is displayed as `name=value` followed by its attributes, verbatim (`CookieLib.display_eq`); a pair
is parsed by percent-decoding the name and the value (`CookieLib.parseEncoded_eq`). A jar keeps what
was read and what was added apart, and reports the second as its delta, in no particular order
(`JarLib.delta_add`). `PlainCookie` and `PlainJar` are an instance of both.

The second half states what each parts value contributes to a response and compares it with what the
response receives: `getAll_applyParts_eq_append_take` is what the code does for every parts value,
every response and every name. A parts value fills a header map with everything it contributes, and
the map is then walked by an iterator that names each header once, so of the contributions to one
name the first arrives. The comparison is thus between a list and its first element, and the two are
the same where the list has no second one.
-/

/-! ### The cookie library -/

/-- What percent-decoding makes of a `name=value` text: a missing `=`, an empty name and a part
that is not UTF-8 after decoding are refused. -/
def parsePair (s : Str) : Option (Str × Str) :=
  (Text.splitOnce '=' s).bind fun p ↦
    if Text.trim p.1 = [] then none
    else (Percent.decodeUtf8 (Text.trim p.1)).bind fun name ↦
      (Percent.decodeUtf8 (Text.trim p.2)).map fun value ↦ (name, value)

/-- A cookie type. -/
class CookieLib (C : Type) where
  name : C → Str
  value : C → Str
  /-- The `Set-Cookie` wire form. -/
  display : C → Str
  /-- Parse a pair, percent-decoding its name and value. -/
  parseEncoded : Str → Option C
  display_eq : ∀ c, ∃ attributes, display c = name c ++ '=' :: (value c ++ attributes) ∧
    (attributes = [] ∨ attributes.head? = some ';')
  parseEncoded_eq : ∀ s, ';' ∉ s →
    (parseEncoded s).map (fun c ↦ (name c, value c)) = parsePair s

/-- A jar type: cookies read from a request (`addOriginal`) and changes made since. -/
class JarLib (J : Type) (C : outParam Type) [CookieLib C] where
  new : J
  add : J → C → J
  addOriginal : J → C → J
  remove : J → C → J
  get : J → Str → Option C
  /-- The cookies added or removed since the jar was read. -/
  delta : J → List C
  delta_new : delta new = []
  delta_addOriginal : ∀ j c, delta (addOriginal j c) = delta j
  delta_add : ∀ j c, (delta (add j c)).Perm
    (c :: (delta j).filter fun d ↦ CookieLib.name d ≠ CookieLib.name c)
  get_new : ∀ n, get new n = none
  get_addOriginal : ∀ j c n, delta j = [] →
    get (addOriginal j c) n = if n = CookieLib.name c then some c else get j n

/-! ### An implementation -/

/-- A cookie without attributes. -/
structure PlainCookie where
  name : Str
  value : Str
  deriving DecidableEq, Repr

/-- The first piece of a text without a semicolon is the text. -/
private theorem takeWhile_of_not_mem {s : Str} (h : ';' ∉ s) : s.takeWhile (· ≠ ';') = s :=
  List.takeWhile_eq_self_iff.2 fun c hc ↦ by
    simp only [ne_eq, decide_not, Bool.not_eq_eq_eq_not, Bool.not_true, decide_eq_false_iff_not]
    exact fun hcs ↦ h (hcs ▸ hc)

instance : CookieLib PlainCookie where
  name := PlainCookie.name
  value := PlainCookie.value
  display c := c.name ++ '=' :: c.value
  parseEncoded s := (parsePair (s.takeWhile (· ≠ ';'))).map fun p ↦ ⟨p.1, p.2⟩
  display_eq c := ⟨[], by rw [List.append_nil], .inl rfl⟩
  parseEncoded_eq s hs := by
    rw [takeWhile_of_not_mem hs, Option.map_map]
    exact congrFun Option.map_id _

/-- A change of a jar: a cookie added, or the removal of an original one. -/
structure DeltaCookie where
  cookie : PlainCookie
  removed : Bool
  deriving DecidableEq, Repr

/-- A jar of plain cookies, newest first. -/
structure PlainJar where
  original : List PlainCookie
  delta : List DeltaCookie
  deriving DecidableEq, Repr

namespace PlainJar

/-- A cookie of a jar: its change if there is one, else the original. -/
def get (j : PlainJar) (n : Str) : Option PlainCookie :=
  match j.delta.find? fun d ↦ d.cookie.name = n with
  | some d => if d.removed then none else some d.cookie
  | none => j.original.find? fun c ↦ c.name = n

/-- Record a change, replacing an earlier change of the same name. -/
def change (j : PlainJar) (d : DeltaCookie) : PlainJar :=
  { j with delta := d :: j.delta.filter fun d' ↦ d'.cookie.name ≠ d.cookie.name }

/-- Drop the change of a name. -/
def unchange (j : PlainJar) (n : Str) : PlainJar :=
  { j with delta := j.delta.filter fun d ↦ d.cookie.name ≠ n }

/-- Removing the entries of a name leaves those of every other name. -/
private theorem find?_filter_name {α : Type} (nm : α → Str) {n k : Str} (hk : n ≠ k)
    (xs : List α) :
    (xs.filter fun x ↦ nm x ≠ k).find? (fun x ↦ nm x = n) = xs.find? fun x ↦ nm x = n := by
  rw [List.find?_filter]
  congr 1
  funext x
  by_cases hx : nm x = n
  · simp [hx, hk]
  · simp [hx]

end PlainJar

instance : JarLib PlainJar PlainCookie where
  new := ⟨[], []⟩
  add j c := j.change ⟨c, false⟩
  addOriginal j c := { j with original := c :: j.original.filter fun d ↦ d.name ≠ c.name }
  remove j c :=
    if j.original.any (fun d ↦ d.name = c.name) then j.change ⟨c, true⟩ else j.unchange c.name
  get := PlainJar.get
  delta j := j.delta.map DeltaCookie.cookie
  delta_new := rfl
  delta_addOriginal _ _ := rfl
  delta_add j c := by
    simp only [PlainJar.change, List.map_cons, List.filter_map]
    rfl
  get_new _ := rfl
  get_addOriginal j c n hj := by
    have hdelta : j.delta = [] := List.map_eq_nil_iff.1 hj
    by_cases hn : n = c.name
    · simp [PlainJar.get, hdelta, CookieLib.name, hn]
    · simp only [PlainJar.get, hdelta, List.find?_nil, List.find?_cons, Ne.symm hn, decide_false,
        PlainJar.find?_filter_name PlainCookie.name hn, CookieLib.name, if_neg hn]

/-! ### The plain jar -/

variable {H E B C J : Type} [Multimap H HeaderName HeaderValue] [Extensions E] [CookieLib C]
  [JarLib J C]

/-- The memo of a parsed `Cookie` header. -/
structure CachedCookies (J : Type) where
  jar : J

/-- One piece of a `Cookie` line: blank pieces and pieces that do not parse are skipped. -/
def addPair (jar : J) (pair : Str) : J :=
  if Text.trim pair = [] then jar
  else match CookieLib.parseEncoded (Text.trim pair) with
    | some cookie => JarLib.addOriginal jar cookie
    | none => jar

/-- One `Cookie` line: a line that is not text is skipped. -/
def addCookieLine (jar : J) (header : HeaderValue) : J :=
  match header.toStr with
  | some valueStr => (valueStr.splitOn ';').foldl addPair jar
  | none => jar

/-- Parse the `Cookie` lines of a request into a jar. -/
def parseCookieHeader (parts : RequestParts H E) : J :=
  (Multimap.getAll parts.headers HeaderName.cookie).foldl addCookieLine JarLib.new

/-- The jar of a request, parsed on first use and then remembered. -/
def requestCookieJar [Extensions.Slot E (CachedCookies J)] (parts : RequestParts H E) :
    J × RequestParts H E :=
  match (Extensions.Slot.get parts.extensions : Option (CachedCookies J)) with
  | some cached => (cached.jar, parts)
  | none =>
    let jar := parseCookieHeader parts
    (jar,
      { parts with extensions := Extensions.Slot.insert parts.extensions (CachedCookies.mk jar) })

/-- Append one `Set-Cookie` header; a cookie whose wire form is not a header value is dropped. -/
def appendSetCookie (headers : H) (cookie : C) : H :=
  match HeaderValue.fromStr (CookieLib.display cookie) with
  | some headerValue => Multimap.append headers HeaderName.setCookie headerValue
  | none => headers

/-- Append a `Set-Cookie` header for every change made to the jar. -/
def applyJarDelta (jar : J) (parts : ResponseParts H) : ResponseParts H :=
  ⟨(JarLib.delta jar).foldl appendSetCookie parts.headers⟩

/-- A plain cookie jar. -/
structure CookieJar (J : Type) where
  inner : J

namespace CookieJar

def new : CookieJar J :=
  ⟨JarLib.new⟩

/-- Get a cookie by name. -/
def get (self : CookieJar J) (name : Str) : Option C :=
  JarLib.get self.inner name

/-- Add or replace a cookie. -/
def add (self : CookieJar J) (cookie : C) : CookieJar J :=
  ⟨JarLib.add self.inner cookie⟩

/-- Remove a cookie. -/
def remove (self : CookieJar J) (cookie : C) : CookieJar J :=
  ⟨JarLib.remove self.inner cookie⟩

/-- Extract the jar of a request. -/
def fromRequestParts [Extensions.Slot E (CachedCookies J)] (parts : RequestParts H E) :
    CookieJar J × RequestParts H E :=
  let (inner, parts) := requestCookieJar parts
  (⟨inner⟩, parts)

instance : IntoResponseParts (CookieJar J) H Empty where
  intoResponseParts self parts := .ok (applyJarDelta self.inner parts)

end CookieJar

/-- The `Set-Cookie` pairs of a list of cookies. -/
def setCookiePairs (cookies : List C) : List (HeaderName × HeaderValue) :=
  cookies.filterMap fun cookie ↦
    (HeaderValue.fromStr (CookieLib.display cookie)).map fun v ↦ (HeaderName.setCookie, v)

/-- The walk over the delta appends exactly the cookies whose wire form is a header value. -/
theorem foldl_appendSetCookie (cookies : List C) (headers : H) :
    cookies.foldl appendSetCookie headers =
      (setCookiePairs cookies).foldl (fun m p ↦ Multimap.append m p.1 p.2) headers := by
  rw [setCookiePairs, List.foldl_filterMap]
  congr 1
  funext m cookie
  rw [appendSetCookie]
  cases HeaderValue.fromStr (CookieLib.display cookie) <;> rfl

theorem getAll_applyJarDelta (jar : J) (parts : ResponseParts H) (n : HeaderName) :
    Multimap.getAll (applyJarDelta jar parts).headers n =
      Multimap.getAll parts.headers n ++
        Multimap.valuesFor n (setCookiePairs (JarLib.delta jar)) := by
  rw [applyJarDelta, foldl_appendSetCookie, Multimap.getAll_foldl_append]

/-! ### What a parts value contributes -/

/-- The parts values of the framework. -/
inductive PartsValue (K V H J : Type)
  | appendHeaders (value : AppendHeaders K V)
  | preload (value : Preload)
  | cookieJar (jar : CookieJar J)
  | headerMap (map : H)

namespace PartsValue

variable {K V : Type} [TryInto K HeaderName] [TryInto V HeaderValue]

omit [Extensions E]

instance : IntoResponseParts (PartsValue K V H J) H Empty where
  intoResponseParts
    | appendHeaders value, parts => IntoResponseParts.intoResponseParts value parts
    | preload value, parts => IntoResponseParts.intoResponseParts value parts
    | cookieJar jar, parts => IntoResponseParts.intoResponseParts jar parts
    | headerMap map, parts => IntoResponseParts.intoResponseParts map parts

/-- The values a parts value holds for a name, in contribution order. -/
def contributed (value : PartsValue K V H J) (n : HeaderName) : List HeaderValue :=
  match value with
  | appendHeaders value => Multimap.valuesFor n value.validPairs
  | preload value => Multimap.valuesFor n
      (value.links.filterMap fun link ↦ link.headerValue.map fun v ↦ (HeaderName.link, v))
  | cookieJar jar => Multimap.valuesFor n (setCookiePairs (JarLib.delta jar.inner))
  | headerMap map => Multimap.getAll map n

/-- A parts value never fails, and accumulates what it contributes; a header map accumulates the
first value of each name only. -/
theorem intoResponseParts_new (value : PartsValue K V H J) :
    ∃ acc : ResponseParts H,
      IntoResponseParts.intoResponseParts value ResponseParts.new = .ok acc ∧
      ∀ n, (Multimap.getAll acc.headers n).take 1 = (value.contributed n).take 1 := by
  cases value with
  | appendHeaders value =>
    refine ⟨_, rfl, fun n ↦ ?_⟩
    rw [AppendHeaders.foldl_appendItem, Multimap.getAll_foldl_append, ResponseParts.new,
      Multimap.getAll_empty, List.nil_append]
    rfl
  | preload value =>
    refine ⟨_, rfl, fun n ↦ ?_⟩
    rw [Preload.foldl_appendLink, Multimap.getAll_foldl_append, ResponseParts.new,
      Multimap.getAll_empty, List.nil_append]
    rfl
  | cookieJar jar =>
    refine ⟨_, rfl, fun n ↦ ?_⟩
    rw [getAll_applyJarDelta, ResponseParts.new, Multimap.getAll_empty, List.nil_append]
    rfl
  | headerMap map =>
    refine ⟨_, rfl, fun n ↦ ?_⟩
    rw [getAll_foldl_appendNamed, ResponseParts.new, Multimap.getAll_empty, List.nil_append,
      List.take_take, min_self]
    rfl

/-- The response gains, for every name, the first contributed value and no other. -/
theorem getAll_applyParts_eq_append_take (value : PartsValue K V H J) (r : Response H E B)
    (n : HeaderName) :
    Multimap.getAll (applyParts value r).headers n =
      Multimap.getAll r.headers n ++ (value.contributed n).take 1 := by
  obtain ⟨acc, hacc, htake⟩ := value.intoResponseParts_new
  rw [getAll_applyParts r n hacc, htake]

/-- Every contributed value arrives exactly when the name has at most one. Applying parts takes the
first value of each name, so a second one is what is lost, of cookies as of any other header. -/
theorem getAll_applyParts_eq_append_iff (value : PartsValue K V H J) (r : Response H E B)
    (n : HeaderName) :
    Multimap.getAll (applyParts value r).headers n =
        Multimap.getAll r.headers n ++ value.contributed n ↔
      (value.contributed n).length ≤ 1 := by
  rw [getAll_applyParts_eq_append_take, List.append_cancel_left_eq, List.take_eq_self_iff]

/-- Two `Set-Cookie` headers are contributed and one arrives. -/
theorem applyParts_drops_second_setCookie :
    let value : PartsValue Str Str (AssocList HeaderName HeaderValue) PlainJar :=
      .appendHeaders ⟨[("set-cookie".toList, "a=1".toList), ("set-cookie".toList, "b=2".toList)]⟩
    let r : Response (AssocList HeaderName HeaderValue) Unit Bytes :=
      ⟨.ok, Multimap.empty, (), []⟩
    Multimap.getAll (applyParts value r).headers HeaderName.setCookie ≠
      Multimap.getAll r.headers HeaderName.setCookie ++ value.contributed HeaderName.setCookie := by
  decide

end PartsValue
