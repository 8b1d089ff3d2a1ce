import Arvik.Core.Body
import Arvik.Core.FieldList
import Arvik.Extract.Cookies
import Arvik.Foundation.Radix

/-!
# The double-submit cookie

A client that has no CSRF token is given one in a cookie, and a request that may change something
has to send the token twice, in the cookie and in a header of its own: another site can make a
browser send the cookie, but cannot read it.

The token of a request is the value of its first CSRF cookie, which is looked for by hand in the
`Cookie` lines (`Csrf.extractCsrfCookie_eq`); the header is compared with it in constant time
(`secretEq_eq_true_iff`). An empty value is a token like any other, so a request with an empty
cookie and an empty header is let through. That is the only way the law is broken:
`Csrf.doubleSubmit_iff`.

`DoubleSubmit` is the law for one request, whatever the service inside does with it: it reaches the
service exactly if it is permitted, and the response sets a token exactly if the request had none.
The comparison in constant time folds the differences of all bytes into one, and is zero exactly if
all of them are (`foldl_xor_eq_zero_iff`); nothing is said about time. The two readers of cookies,
that of the code and that of the specification, agree on every line that can be read, with the name
and the value trimmed alike.
-/

/-! ### Comparing secrets -/

/-- Equality, with all bytes compared wherever they differ. -/
def secretEq (a b : Str) : Bool :=
  let a := Text.utf8 a
  let b := Text.utf8 b
  if a.length ≠ b.length then false
  else (a.zip b).foldl (fun diff p ↦ diff ||| (p.1 ^^^ p.2)) (0 : UInt8) == 0

/-- The accumulated difference is zero exactly if it was and the bytes are equal. -/
theorem foldl_xor_eq_zero_iff {a b : Bytes} (h : a.length = b.length) (diff : UInt8) :
    (a.zip b).foldl (fun diff p ↦ diff ||| (p.1 ^^^ p.2)) diff = 0 ↔ diff = 0 ∧ a = b := by
  induction a generalizing b diff with
  | nil =>
    rw [List.length_nil, eq_comm, List.length_eq_zero_iff] at h
    rw [h]
    exact (and_iff_left rfl).symm
  | cons x a ih =>
    obtain ⟨y, b, rfl⟩ := List.exists_cons_of_length_eq_add_one h.symm
    rw [List.zip_cons_cons, List.foldl_cons, ih (Nat.succ.inj h), UInt8.or_eq_zero_iff,
      UInt8.xor_eq_zero_iff, List.cons_eq_cons, and_assoc]

/-- **Secrets compare as equal exactly if they are.** The lengths are compared first, and then the
fold over the differences is zero only if every one of them is. -/
theorem secretEq_eq_true_iff {a b : Str} : secretEq a b ↔ a = b := by
  rw [secretEq]
  split_ifs with h
  · refine iff_of_false not_false ?_
    rintro rfl
    exact h rfl
  · rw [beq_iff_eq, foldl_xor_eq_zero_iff (not_not.1 h), Text.utf8_injective.eq_iff]
    exact and_iff_right rfl

/-! ### The layer -/

/-- A random identifier, as hexadecimal digits and hyphens. -/
structure Uuid where
  text : Str
  hyphenated : ∀ c ∈ text, c = '-' ∨ Radix.isLowerHexDigit c

/-- The token of a request. -/
structure CsrfToken where
  text : Str
  deriving DecidableEq

def CsrfToken.new (uuid : Uuid) : CsrfToken := ⟨uuid.text⟩

inductive SameSite
  | strict
  | lax
  | none
  deriving DecidableEq

/-- A text of printable ASCII. -/
def IsPrintable (s : Str) : Prop :=
  ∀ c ∈ s, 32 ≤ c.toNat ∧ c.toNat < 127

/-- A cookie with more attributes: its name and its value are kept, and it shows nothing that is not
printable on their account. -/
structure SameCookie {C : Type} [CookieLib C] (c c' : C) : Prop where
  name : CookieLib.name c' = CookieLib.name c
  value : CookieLib.value c' = CookieLib.value c
  printable : IsPrintable (CookieLib.display c) → IsPrintable (CookieLib.display c')

theorem SameCookie.trans {C : Type} [CookieLib C] {c c' c'' : C} (h : SameCookie c c')
    (h' : SameCookie c' c'') : SameCookie c c'' where
  name := h'.name.trans h.name
  value := h'.value.trans h.value
  printable := h'.printable ∘ h.printable

/-- Cookies that are made to be set. -/
class SetCookieLib (C : Type) [CookieLib C] where
  new : Str → Str → C
  setHttpOnly : C → Bool → C
  setSecure : C → Bool → C
  setSameSite : C → SameSite → C
  setPath : C → Str → C
  name_new : ∀ name value, CookieLib.name (new name value) = name
  value_new : ∀ name value, CookieLib.value (new name value) = value
  printable_new : ∀ name value, IsPrintable name → IsPrintable value →
    IsPrintable (CookieLib.display (new name value))
  same_setHttpOnly : ∀ c httpOnly, SameCookie c (setHttpOnly c httpOnly)
  same_setSecure : ∀ c secure, SameCookie c (setSecure c secure)
  same_setSameSite : ∀ c sameSite, SameCookie c (setSameSite c sameSite)
  same_setPath : ∀ c path, IsPrintable path → SameCookie c (setPath c path)

def csrfCookieName : Str := "csrf_token".toList
def csrfHeaderName : HeaderName := .xCsrfToken

/-- The layer; the names of the cookie and of the header cannot be set. -/
structure CsrfLayer where
  secure : Bool := false
  sameSite : SameSite := .strict

namespace CsrfLayer

/-- The name of the cookie. -/
def cookieName (_self : CsrfLayer) : Str := csrfCookieName

/-- The name of the header. -/
def headerName (_self : CsrfLayer) : HeaderName := csrfHeaderName

end CsrfLayer

variable {H E B C : Type} [Multimap H HeaderName HeaderValue]

/-- Every method may change something but for the four that do not. -/
def isStateChanging (method : Method) : Bool :=
  !(method ∈ [Method.get, .head, .options, .trace])

/-- The value of a cookie in one piece of a line, if it is the cookie with the name. -/
def csrfCookieInPair (cookieName pair : Str) : Option Str :=
  match Text.splitOnce '=' (Text.trim pair) with
  | some (name, value) => if Text.trim name = cookieName then some (Text.trim value) else none
  | none => none

/-- The value of the first cookie with a name; lines that are not text are skipped. -/
def extractCsrfCookie (headers : H) (cookieName : Str) : Option Str :=
  (Multimap.getAll headers HeaderName.cookie).findSome? fun headerVal ↦
    match headerVal.toStr with
    | some cookieStr => (cookieStr.splitOn ';').findSome? (csrfCookieInPair cookieName)
    | none => none

section Call

variable [Extensions E] [FromBytes B]

/-- The refusal of a request. -/
def csrfForbidden : Response H E B where
  status := .forbidden
  headers := Multimap.append Multimap.empty HeaderName.contentType HeaderValue.applicationJson
  extensions := Extensions.empty
  body := FromBytes.fromBytes (Text.utf8
    ("\x7b\"error\":\"Forbidden\",\"code\":403,".toList ++
      "\"message\":\"CSRF token validation failed\"\x7d".toList))

variable [CookieLib C] [SetCookieLib C]

variable (C) in
/-- The cookie of a new token. -/
def CsrfLayer.tokenCookie (self : CsrfLayer) (csrfToken : CsrfToken) : C :=
  let cookie := SetCookieLib.new self.cookieName csrfToken.text
  let cookie := SetCookieLib.setHttpOnly cookie false
  let cookie := SetCookieLib.setSecure cookie self.secure
  let cookie := SetCookieLib.setSameSite cookie self.sameSite
  SetCookieLib.setPath cookie ['/']

variable (C) in
/-- The rest of a request that is let through: the response, with the cookie of a new token. -/
def CsrfLayer.proceed {m : Type → Type} [Monad m] (self : CsrfLayer) (csrfToken : CsrfToken)
    (isNew : Bool) (inner : Request H E B → m (Response H E B)) (req : Request H E B) :
    m (Response H E B) := do
  let response ← inner req
  pure <|
    if isNew then
      match HeaderValue.fromStr (CookieLib.display (self.tokenCookie C csrfToken)) with
      | some val =>
        { response with headers := Multimap.append response.headers HeaderName.setCookie val }
      | none => response
    else response

variable (C) in
/-- A request through the layer; `uuid` is what a new token is made of. -/
def CsrfLayer.call [Extensions.Slot E CsrfToken] {m : Type → Type} [Monad m] (self : CsrfLayer)
    (uuid : Uuid) (inner : Request H E B → m (Response H E B)) (req : Request H E B) :
    m (Response H E B) :=
  let cookieToken := extractCsrfCookie req.headers self.cookieName
  let csrfToken := (cookieToken.map CsrfToken.mk).getD (.new uuid)
  let isNew := cookieToken.isNone
  let req := req.insertExtension csrfToken
  if isStateChanging req.method then
    if isNew then pure csrfForbidden
    else
      match (Multimap.get req.headers self.headerName).bind HeaderValue.toStr with
      | some h =>
        if secretEq h csrfToken.text then self.proceed C csrfToken isNew inner req
        else pure csrfForbidden
      | none => pure csrfForbidden
  else self.proceed C csrfToken isNew inner req

end Call

namespace Csrf

/-! ### The law -/

/-- The cookies of a line: a name and a value around the first equals sign of each piece. -/
def cookiePairs (line : HeaderValue) : List (Str × Str) :=
  ((FieldList.chars line).splitOn ';').filterMap fun piece ↦
    (Text.splitOnce '=' piece).map (Prod.map FieldList.trimOws FieldList.trimOws)

/-- The values of the CSRF cookies, over all lines. -/
def csrfCookies (headers : H) : List Str :=
  ((Multimap.getAll headers HeaderName.cookie).flatMap cookiePairs).filterMap fun (name, value) ↦
    if name = csrfCookieName then some value else none

/-- The first line of the CSRF header is the text. -/
def HeaderIs (headers : H) (text : Str) : Prop :=
  ∃ line, Multimap.get headers csrfHeaderName = some line ∧ line.bytes = Text.utf8 text

/-- A request that is to be let through: it cannot change anything, or there is a CSRF cookie with a
value and the token is sent twice. -/
def Permitted (req : Request H E B) : Prop :=
  req.method ∈ [Method.get, .head, .options, .trace] ∨
    (∃ value ∈ csrfCookies req.headers, value ≠ []) ∧
      ∃ value, (csrfCookies req.headers).head? = some value ∧ HeaderIs req.headers value

/-- A response, with some lines for cookies added. -/
structure AddsCookies (lines : List HeaderValue) (response response' : Response H E B) : Prop where
  status : response'.status = response.status
  headers : ∀ name, Multimap.getAll response'.headers name =
    Multimap.getAll response.headers name ++ if name = HeaderName.setCookie then lines else []
  extensions : response'.extensions = response.extensions
  body : response'.body = response.body

variable (C) in
/-- The line sets the cookie of a token. -/
def SetsToken [CookieLib C] (line : HeaderValue) (csrfToken : CsrfToken) : Prop :=
  ∃ cookie : C, CookieLib.name cookie = csrfCookieName ∧
    CookieLib.value cookie = csrfToken.text ∧ line.bytes = Text.utf8 (CookieLib.display cookie)

section Law

variable [Extensions E] [FromBytes B] [CookieLib C] [SetCookieLib C] [Extensions.Slot E CsrfToken]

variable (C) in
/-- The layer calls the inner service, once, exactly for the requests that are permitted, with a
token; a token that no cookie of the request had is set in the response. All other requests are
answered with a 403. -/
structure DoubleSubmit (layer : CsrfLayer) (req : Request H E B) : Prop where
  compares : ∀ a b, secretEq a b ↔ a = b
  permitted : Permitted req → ∀ uuid, ∃ csrfToken lines,
    ∃ finish : Response H E B → Response H E B,
    (∀ {m : Type → Type} [Monad m] (inner : Request H E B → m (Response H E B)),
      layer.call C uuid inner req =
        inner (req.insertExtension csrfToken) >>= fun response ↦ pure (finish response)) ∧
    (∀ response, AddsCookies lines response (finish response)) ∧
    (csrfCookies req.headers = [] → ∃ line, lines = [line] ∧ SetsToken C line csrfToken) ∧
    (csrfCookies req.headers ≠ [] → lines = [])
  refused : ¬Permitted req → ∀ uuid, ∃ response : Response H E B, response.status = .forbidden ∧
    ∀ {m : Type → Type} [Monad m] (inner : Request H E B → m (Response H E B)),
      layer.call C uuid inner req = pure response

end Law

/-! ### Finding the cookie -/

/-- The value in a name and a value, if the name is that of the CSRF cookie. -/
def csrfValue (p : Str × Str) : Option Str :=
  if p.1 = csrfCookieName then some p.2 else none

/-- A piece of a line that can be read is taken apart as a cookie. -/
theorem csrfCookieInPair_eq {line : HeaderValue} {text piece : Str}
    (htext : line.toStr = some text) (hpiece : piece ⊆ text) :
    csrfCookieInPair csrfCookieName piece =
      ((Text.splitOnce '=' piece).map (Prod.map FieldList.trimOws FieldList.trimOws)).bind
        csrfValue := by
  have htrim : (Text.splitOnce '=' piece).map (Prod.map FieldList.trimOws FieldList.trimOws) =
      (Text.splitOnce '=' piece).map (Prod.map Text.trim Text.trim) := by
    refine Option.map_congr fun p hp ↦ ?_
    have hsub : p.1 ++ '=' :: p.2 ⊆ text := (Text.splitOnce_eq_some_iff.1 hp).1 ▸ hpiece
    obtain ⟨hname, hvalue⟩ := List.append_subset.1 hsub
    exact Prod.ext (FieldList.trimOws_of_toStr htext hname)
      (FieldList.trimOws_of_toStr htext (List.cons_subset.1 hvalue).2)
  rw [htrim, ← Text.map_trim_splitOnce_trim (by decide), csrfCookieInPair]
  rcases Text.splitOnce '=' (Text.trim piece) with - | ⟨name, value⟩
  · rfl
  · rfl

/-- The cookie that is found is the first one there is. -/
theorem extractCsrfCookie_eq {headers : H}
    (h : ∀ line ∈ Multimap.getAll headers HeaderName.cookie, line.toStr.isSome) :
    extractCsrfCookie headers csrfCookieName = (csrfCookies headers).head? := by
  have hlines : csrfCookies headers =
      (Multimap.getAll headers HeaderName.cookie).flatMap fun line ↦
        ((FieldList.chars line).splitOn ';').filterMap (csrfCookieInPair csrfCookieName) := by
    rw [csrfCookies, List.filterMap_flatMap]
    refine List.flatMap_congr fun line hline ↦ ?_
    obtain ⟨text, htext⟩ := Option.isSome_iff_exists.1 (h line hline)
    rw [cookiePairs, List.filterMap_filterMap, FieldList.chars_of_toStr htext]
    exact List.filterMap_congr fun piece hpiece ↦
      (csrfCookieInPair_eq htext (Text.mem_splitOn hpiece).2).symm
  rw [hlines, List.head?_flatMap, extractCsrfCookie, ← List.head?_filterMap, ← List.head?_filterMap]
  refine congrArg List.head? (List.filterMap_congr fun line hline ↦ ?_)
  obtain ⟨text, htext⟩ := Option.isSome_iff_exists.1 (h line hline)
  rw [htext, FieldList.chars_of_toStr htext]
  exact List.head?_filterMap.symm

/-- A cookie of a line that can be read has a printable value, tabs apart. -/
theorem visible_of_mem_csrfCookies {headers : H}
    (h : ∀ line ∈ Multimap.getAll headers HeaderName.cookie, line.toStr.isSome) {value : Str}
    (hvalue : value ∈ csrfCookies headers) :
    ∀ c ∈ value, c.toNat = 9 ∨ 32 ≤ c.toNat ∧ c.toNat < 127 := by
  obtain ⟨p, hp, hvalue⟩ := List.mem_filterMap.1 hvalue
  obtain ⟨line, hline, hp⟩ := List.mem_flatMap.1 hp
  obtain ⟨piece, hpiece, hp⟩ := List.mem_filterMap.1 hp
  obtain ⟨q, hq, rfl⟩ := Option.map_eq_some_iff.1 hp
  obtain ⟨text, htext⟩ := Option.isSome_iff_exists.1 (h line hline)
  rw [FieldList.chars_of_toStr htext] at hpiece
  obtain ⟨-, hvalue⟩ := Option.ite_none_right_eq_some.1 hvalue
  obtain rfl := Option.some.inj hvalue
  -- from the value to what stands behind the equals sign, to the piece and to the line
  intro c hc
  have hbehind : c ∈ q.2 := FieldList.trimOws_subset q.2 hc
  have hinPiece : c ∈ piece := by
    rw [(Text.splitOnce_eq_some_iff.1 hq).1]
    exact List.mem_append_right q.1 (List.mem_cons_of_mem '=' hbehind)
  exact (HeaderValue.toStr_eq_some_iff.1 htext).2 c ((Text.mem_splitOn hpiece).2 hinPiece)

/-! ### One request -/

section Run

variable [Extensions E] [FromBytes B] [CookieLib C] [SetCookieLib C] [Extensions.Slot E CsrfToken]

/-- What the layer asks of a request that may change something: the token in cookie and header. -/
def SentTwice (headers : H) : Prop :=
  ∃ value, (csrfCookies headers).head? = some value ∧ HeaderIs headers value

/-- The first line of the header can be read as a printable text exactly if it is the text. -/
theorem headerIs_iff {headers : H} {value : Str}
    (h : ∀ c ∈ value, c.toNat = 9 ∨ 32 ≤ c.toNat ∧ c.toNat < 127) :
    HeaderIs headers value ↔
      (Multimap.get headers csrfHeaderName).bind HeaderValue.toStr = some value := by
  rw [Option.bind_eq_some_iff]
  refine exists_congr fun line ↦ and_congr_right fun _ ↦ ?_
  rw [HeaderValue.toStr_eq_some_iff, and_iff_left h]

/-- The token a handler sees. -/
def seenToken (uuid : Uuid) (headers : H) : CsrfToken :=
  ((csrfCookies headers).head?.map CsrfToken.mk).getD (.new uuid)

variable (C) in
/-- A request that changes nothing or sends its token twice goes on with the token. -/
theorem call_eq_proceed {m : Type → Type} [Monad m] (self : CsrfLayer) (uuid : Uuid)
    (inner : Request H E B → m (Response H E B)) {req : Request H E B}
    (hlines : ∀ line ∈ Multimap.getAll req.headers HeaderName.cookie, line.toStr.isSome)
    (h : isStateChanging req.method → SentTwice req.headers) :
    self.call C uuid inner req =
      self.proceed C (seenToken uuid req.headers) (csrfCookies req.headers).head?.isNone inner
        (req.insertExtension (seenToken uuid req.headers)) := by
  have hcookie : extractCsrfCookie req.headers self.cookieName = (csrfCookies req.headers).head? :=
    extractCsrfCookie_eq hlines
  rw [CsrfLayer.call, hcookie]
  rcases hmethod : isStateChanging req.method
  · exact if_neg (by rw [← Bool.not_eq_true] at hmethod; exact hmethod)
  · obtain ⟨value, hvalue, hheader⟩ := h hmethod
    have hvisible := visible_of_mem_csrfCookies hlines (List.mem_of_head? hvalue)
    have htoken : seenToken uuid req.headers = ⟨value⟩ := by
      rw [seenToken, hvalue]
      rfl
    rw [htoken, hvalue]
    refine (if_pos hmethod).trans ((if_neg Bool.false_ne_true).trans ?_)
    have hread := (headerIs_iff hvisible).1 hheader
    split
    · next sent hsent =>
      exact if_pos (secretEq_eq_true_iff.2 (Option.some.inj (hsent.symm.trans hread)))
    · next hnone => exact absurd (hnone.symm.trans hread) (Option.some_ne_none value).symm

variable (C) in
/-- A request that may change something and does not send its token twice is refused. -/
theorem call_eq_forbidden {m : Type → Type} [Monad m] (self : CsrfLayer) (uuid : Uuid)
    (inner : Request H E B → m (Response H E B)) {req : Request H E B}
    (hlines : ∀ line ∈ Multimap.getAll req.headers HeaderName.cookie, line.toStr.isSome)
    (hmethod : isStateChanging req.method) (h : ¬SentTwice req.headers) :
    self.call C uuid inner req = pure csrfForbidden := by
  have hcookie : extractCsrfCookie req.headers self.cookieName = (csrfCookies req.headers).head? :=
    extractCsrfCookie_eq hlines
  rw [CsrfLayer.call, hcookie]
  refine (if_pos hmethod).trans ?_
  rcases hvalue : (csrfCookies req.headers).head? with - | value
  · exact if_pos rfl
  · have hvisible := visible_of_mem_csrfCookies hlines (List.mem_of_head? hvalue)
    refine (if_neg Bool.false_ne_true).trans ?_
    split
    · next sent hsent =>
      refine if_neg fun heq ↦ h ⟨value, hvalue, (headerIs_iff hvisible).2 ?_⟩
      have hsame : sent = value := secretEq_eq_true_iff.1 heq
      rw [← hsame]
      exact hsent
    · rfl

/-- The cookie of a new token is shown in full. -/
theorem setsToken_tokenCookie (self : CsrfLayer) (uuid : Uuid) :
    ∃ line, HeaderValue.fromStr (CookieLib.display (self.tokenCookie C (.new uuid))) = some line ∧
      SetsToken C line (.new uuid) := by
  have hname : IsPrintable csrfCookieName := by
    have hall : csrfCookieName.all fun c ↦ 32 ≤ c.toNat && c.toNat < 127 := by decide
    intro c hc
    simpa using List.all_eq_true.1 hall c hc
  have hpath : IsPrintable ['/'] := by
    intro c hc
    rw [List.mem_singleton.1 hc]
    decide
  have hvalue : IsPrintable uuid.text := by
    intro c hc
    rcases uuid.hyphenated c hc with rfl | hhex
    · decide
    · simp only [Radix.isLowerHexDigit, Bool.or_eq_true, Bool.and_eq_true,
        decide_eq_true_eq] at hhex
      omega
  have hsame : SameCookie (SetCookieLib.new csrfCookieName uuid.text)
      (self.tokenCookie C (.new uuid)) :=
    (SetCookieLib.same_setHttpOnly _ false).trans <|
      (SetCookieLib.same_setSecure _ self.secure).trans <|
        (SetCookieLib.same_setSameSite _ self.sameSite).trans <|
          SetCookieLib.same_setPath _ ['/'] hpath
  obtain ⟨line, hline, -⟩ :=
    HeaderValue.fromStr_visible (hsame.printable (SetCookieLib.printable_new _ _ hname hvalue))
  exact ⟨line, hline, _, hsame.name.trans (SetCookieLib.name_new _ _),
    hsame.value.trans (SetCookieLib.value_new _ _), HeaderValue.fromStr_bytes hline⟩

omit [Extensions E] [FromBytes B] [Extensions.Slot E CsrfToken] in
variable (C) in
/-- The rest of a request that is let through: a new token is set in the response, and nothing else
is changed. -/
theorem exists_finish (self : CsrfLayer) (uuid : Uuid) (headers : H) :
    ∃ lines, ∃ finish : Response H E B → Response H E B,
      (∀ {m : Type → Type} [Monad m] (inner : Request H E B → m (Response H E B))
        (req : Request H E B),
        self.proceed C (seenToken uuid headers) (csrfCookies headers).head?.isNone inner req =
          inner req >>= fun response ↦ pure (finish response)) ∧
      (∀ response, AddsCookies lines response (finish response)) ∧
      (csrfCookies headers = [] → ∃ line, lines = [line] ∧
        SetsToken C line (seenToken uuid headers)) ∧
      (csrfCookies headers ≠ [] → lines = []) := by
  rcases hcookies : csrfCookies headers with - | ⟨value, values⟩
  · -- no cookie: the token is new, and its cookie can be shown
    have htoken : seenToken uuid headers = .new uuid := by
      rw [seenToken, hcookies]
      rfl
    obtain ⟨line, hline, hsets⟩ := setsToken_tokenCookie (C := C) self uuid
    refine ⟨[line], fun response ↦
      { response with headers := Multimap.append response.headers HeaderName.setCookie line },
      fun inner req ↦ ?_, fun response ↦ ⟨rfl, fun name ↦ ?_, rfl, rfl⟩,
      fun _ ↦ ⟨line, rfl, htoken ▸ hsets⟩, fun h ↦ absurd rfl h⟩
    · rw [htoken, CsrfLayer.proceed, hline]
      rfl
    · rw [Multimap.getAll_append]
      split
      · rfl
      · exact (List.append_nil _).symm
  · exact ⟨[], id, fun _ _ ↦ rfl,
      fun response ↦ ⟨rfl, fun name ↦ by rw [ite_self, List.append_nil, id], rfl, rfl⟩,
      fun h ↦ absurd h (List.cons_ne_nil _ _), fun _ ↦ rfl⟩

/-! ### When the law holds -/

/-- A request that may change something, all of its CSRF cookies and the header being empty. Another
site can bring such a request about without knowing any token. -/
structure EmptyTwice (req : Request H E B) : Prop where
  method : req.method ∉ [Method.get, .head, .options, .trace]
  cookie : csrfCookies req.headers ≠ []
  empty : ∀ value ∈ csrfCookies req.headers, value = []
  header : HeaderIs req.headers []

omit [Extensions E] [FromBytes B] [Multimap H HeaderName HeaderValue] in
theorem isStateChanging_iff {method : Method} :
    isStateChanging method ↔ method ∉ [Method.get, .head, .options, .trace] := by
  rw [isStateChanging, Bool.not_eq_true', decide_eq_false_iff_not]

omit [Extensions E] [FromBytes B] in
/-- What is let through is permitted, but for empty tokens. -/
theorem permitted_iff {req : Request H E B} :
    Permitted req ↔
      (isStateChanging req.method → SentTwice req.headers) ∧ ¬EmptyTwice req := by
  rw [isStateChanging_iff]
  constructor
  · rintro (hsafe | ⟨⟨value, hvalue, hne⟩, hsent⟩)
    · exact ⟨fun h ↦ absurd hsafe h, fun h ↦ h.method hsafe⟩
    · exact ⟨fun _ ↦ hsent, fun h ↦ hne (h.empty value hvalue)⟩
  · rintro ⟨hsent, hempty⟩
    refine or_iff_not_imp_left.2 fun hmethod ↦ ⟨?_, hsent hmethod⟩
    by_contra hall
    push Not at hall
    obtain ⟨value, hvalue, hheader⟩ := hsent hmethod
    have hmem := List.mem_of_head? hvalue
    rw [hall value hmem] at hheader
    exact hempty ⟨hmethod, List.ne_nil_of_mem hmem, hall, hheader⟩

omit [Extensions E] [FromBytes B] in
theorem EmptyTwice.sentTwice {req : Request H E B} (h : EmptyTwice req) :
    SentTwice req.headers := by
  obtain ⟨value, values, hcookies⟩ := List.exists_cons_of_ne_nil h.cookie
  have hvalue : value = [] := h.empty value (hcookies ▸ List.mem_cons_self)
  refine ⟨value, by rw [hcookies, List.head?_cons], ?_⟩
  rw [hvalue]
  exact h.header

variable (C) in
/-- A request that sends an empty token twice is let through although it is not permitted. -/
theorem not_doubleSubmit_of_emptyTwice {self : CsrfLayer} {req : Request H E B}
    (hlines : ∀ line ∈ Multimap.getAll req.headers HeaderName.cookie, line.toStr.isSome)
    (h : EmptyTwice req) : ¬DoubleSubmit C self req := by
  intro hlaw
  let uuid : Uuid := ⟨[], fun _ hc ↦ absurd hc List.not_mem_nil⟩
  have hnot : ¬Permitted req := fun hpermitted ↦ (permitted_iff.1 hpermitted).2 h
  obtain ⟨response, -, hcall⟩ := hlaw.refused hnot uuid
  -- an inner service that never answers tells whether it was called
  have hrefused := hcall fun _ ↦ (none : Option (Response H E B))
  rw [call_eq_proceed C self uuid _ hlines fun _ ↦ h.sentTwice] at hrefused
  cases hrefused

/-- **When the layer enforces the double submit**: unless an empty token is sent twice. A token that
the layer made is never empty, but a client may send any cookie. -/
theorem doubleSubmit_iff {self : CsrfLayer} {req : Request H E B}
    (hlines : ∀ line ∈ Multimap.getAll req.headers HeaderName.cookie, line.toStr.isSome) :
    DoubleSubmit C self req ↔ ¬EmptyTwice req := by
  refine ⟨fun hlaw hempty ↦ not_doubleSubmit_of_emptyTwice C hlines hempty hlaw, fun hempty ↦ ?_⟩
  refine ⟨fun a b ↦ secretEq_eq_true_iff, fun hpermitted uuid ↦ ?_, fun hrefused uuid ↦ ?_⟩
  · have hsent := (permitted_iff.1 hpermitted).1
    obtain ⟨lines, finish, hproceed, hfinish⟩ :=
      exists_finish (E := E) (B := B) C self uuid req.headers
    refine ⟨seenToken uuid req.headers, lines, finish, fun inner ↦ ?_, hfinish⟩
    rw [call_eq_proceed C self uuid inner hlines hsent, hproceed]
  · refine ⟨csrfForbidden, rfl, fun inner ↦ ?_⟩
    have hnot : ¬(isStateChanging req.method → SentTwice req.headers) :=
      fun hsent ↦ hrefused (permitted_iff.2 ⟨hsent, hempty⟩)
    obtain ⟨hmethod, hsent⟩ := Classical.not_imp.1 hnot
    exact call_eq_forbidden C self uuid inner hlines hmethod hsent

end Run

section Examples

/-- A plain cookie has no attributes to set. -/
@[reducible]
private def plainSetCookie : SetCookieLib PlainCookie where
  new := PlainCookie.mk
  setHttpOnly c _ := c
  setSecure c _ := c
  setSameSite c _ := c
  setPath c _ := c
  name_new _ _ := rfl
  value_new _ _ := rfl
  printable_new name value hname hvalue := by
    intro c hc
    rcases List.mem_append.1 hc with hc | hc
    · exact hname c hc
    · rcases List.mem_cons.1 hc with rfl | hc
      · decide
      · exact hvalue c hc
  same_setHttpOnly _ _ := ⟨rfl, rfl, id⟩
  same_setSecure _ _ := ⟨rfl, rfl, id⟩
  same_setSameSite _ _ := ⟨rfl, rfl, id⟩
  same_setPath _ _ _ := ⟨rfl, rfl, id⟩

attribute [local instance] plainSetCookie

/-- A request that may change something, with a cookie line and a header. -/
private def submits (cookie header : HeaderValue) : Request (AssocList HeaderName HeaderValue)
    (Option CsrfToken) (Body (AssocList HeaderName HeaderValue)) where
  inner := ⟨.post, { path := ['/'] },
    ⟨[(HeaderName.cookie, cookie), (HeaderName.xCsrfToken, header)]⟩, none, Body.empty, .http11⟩
  extensions := none

private theorem isSome_toStr_submits {cookie header : HeaderValue} (h : cookie.toStr.isSome) :
    ∀ line ∈ Multimap.getAll (submits cookie header).headers HeaderName.cookie,
      line.toStr.isSome := by
  have hlines : Multimap.getAll (submits cookie header).headers HeaderName.cookie = [cookie] := by
    rfl
  rw [hlines]
  intro line hline
  rwa [List.mem_singleton.1 hline]

theorem doubleSubmit_submits :
    DoubleSubmit PlainCookie {}
      (submits (.fromStatic "a=b; csrf_token=c-1") (.fromStatic "c-1")) := by
  refine (doubleSubmit_iff (isSome_toStr_submits (by decide))).2 fun h ↦ ?_
  have hcookies : csrfCookies (submits (.fromStatic "a=b; csrf_token=c-1")
      (.fromStatic "c-1")).headers = ["c-1".toList] := by decide
  exact absurd (h.empty "c-1".toList (hcookies ▸ List.mem_cons_self)) (by decide)

/-- The request with an empty cookie and an empty header is let through. -/
theorem not_doubleSubmit_emptyToken :
    ¬DoubleSubmit PlainCookie {} (submits (.fromStatic "csrf_token=") (.fromStatic "")) := by
  have hcookies : csrfCookies (submits (.fromStatic "csrf_token=") (.fromStatic "")).headers =
      [[]] := by decide
  refine not_doubleSubmit_of_emptyTwice PlainCookie (isSome_toStr_submits (by decide))
    { method := by decide
      cookie := hcookies ▸ List.cons_ne_nil _ _
      empty := fun value hvalue ↦ List.mem_singleton.1 (hcookies ▸ hvalue)
      header := ⟨.fromStatic "", by decide, by decide⟩ }

end Examples

end Csrf
