import Arvik.Foundation.Base64
import Arvik.Foundation.Layering
import Arvik.Middleware.Csrf

/-!
# Required authorization

A layer lets a request through if it is authorized, and answers a 401 with a challenge otherwise. A
bearer token and a pair of credentials are compared with the text of the first `Authorization` line;
a validator of the application looks at the whole request.

Inside any stack of such layers a service is called exactly for the requests that all of them
authorize, and the challenge is that of the outermost layer that refuses
(`RequireAuthorizationLayer.applyAll_call`). It is by induction on the stack, where the outermost
layer is the last one put around; a layer hands a request on as it is, so all of them look at the
same one.

What the lines say is compared, not the credentials: two pairs are the same if they have the same
text around the colon (`AuthStrategy.sharesRequest_iff`). A line is taken exactly if it is the
expected text (`presents_iff`), so two strategies take a line in common exactly if they expect one
text, and what is left is that the encoding is injective, a law of the library that encodes.
-/

/-- How a request is authorized. -/
inductive AuthStrategy (H E B : Type)
  | bearer (token : Str)
  | basic (username password : Str)
  | custom (validator : Request H E B → Bool)

namespace AuthStrategy

variable {H E B : Type}

/-- The line of a bearer token. -/
def bearerText (token : Str) : Str :=
  "Bearer ".toList ++ token

/-- The line of a pair of credentials. -/
def basicText [Base64Lib] (username password : Str) : Str :=
  "Basic ".toList ++ Base64Lib.encode (Text.utf8 (username ++ ':' :: password))

/-- The challenge to a request that is not authorized. -/
def wwwAuthenticateValue : AuthStrategy H E B → HeaderValue
  | bearer _ | custom _ => .fromStatic "Bearer realm=\"api\""
  | basic _ _ => .fromStatic "Basic realm=\"api\""

variable [Multimap H HeaderName HeaderValue]

/-- The first `Authorization` line is a text. -/
def presents (headers : H) (expected : Str) : Bool :=
  (((Multimap.get headers HeaderName.authorization).bind HeaderValue.toStr).map
    fun v ↦ secretEq v expected).getD false

def isAuthorized [Base64Lib] (self : AuthStrategy H E B) (req : Request H E B) : Bool :=
  match self with
  | bearer token => presents req.headers (bearerText token)
  | basic username password => presents req.headers (basicText username password)
  | custom validator => validator req

end AuthStrategy

/-- The layer. -/
structure RequireAuthorizationLayer (H E B : Type) where
  strategy : AuthStrategy H E B

namespace RequireAuthorizationLayer

variable {H E B : Type}

def bearer (token : Str) : RequireAuthorizationLayer H E B := ⟨.bearer token⟩

def basic (username password : Str) : RequireAuthorizationLayer H E B :=
  ⟨.basic username password⟩

def custom (validator : Request H E B → Bool) : RequireAuthorizationLayer H E B :=
  ⟨.custom validator⟩

variable [Multimap H HeaderName HeaderValue] [Extensions E] [FromBytes B]

/-- The answer to a request that is not authorized. -/
def unauthorized (self : RequireAuthorizationLayer H E B) : Response H E B where
  status := .unauthorized
  headers := Multimap.append
    (Multimap.append Multimap.empty HeaderName.contentType HeaderValue.applicationJson)
    HeaderName.wwwAuthenticate self.strategy.wwwAuthenticateValue
  extensions := Extensions.empty
  body := FromBytes.fromBytes
    (Text.utf8 "\x7b\"error\":\"Unauthorized\",\"code\":401\x7d".toList)

variable [Base64Lib]

/-- A request through the layer. -/
def call {m : Type → Type} [Monad m] (self : RequireAuthorizationLayer H E B)
    (inner : Request H E B → m (Response H E B)) (req : Request H E B) : m (Response H E B) :=
  if self.strategy.isAuthorized req then inner req else pure self.unauthorized

/-- **A stack of layers** lets exactly those requests through that all of them authorize, and
otherwise answers with the challenge of the outermost one that does not. The first layer of the list
is the innermost. -/
theorem applyAll_call {m : Type → Type} [Monad m] (inner : Request H E B → m (Response H E B))
    (layers : List (RequireAuthorizationLayer H E B)) (req : Request H E B) :
    Layering.applyAll call inner layers req =
      match layers.reverse.find? fun layer ↦ !layer.strategy.isAuthorized req with
      | some layer => pure layer.unauthorized
      | none => inner req := by
  induction layers generalizing inner with
  | nil => rfl
  | cons layer layers ih =>
    rw [Layering.applyAll_cons, ih, List.reverse_cons, List.find?_append]
    generalize layers.reverse.find? _ = refusing
    rcases refusing with - | outer
    · -- only the innermost layer is left to refuse
      rw [Option.none_or, List.find?_singleton]
      show (if layer.strategy.isAuthorized req then _ else _) = _
      rcases layer.strategy.isAuthorized req with - | -
      · rfl
      · rfl
    · rfl

end RequireAuthorizationLayer

namespace AuthStrategy

variable {H E B : Type} [Multimap H HeaderName HeaderValue]

/-- A text that can be sent as the value of a header and be read again. -/
def IsReadable (s : Str) : Prop :=
  ∀ c ∈ s, c.toNat = 9 ∨ 32 ≤ c.toNat ∧ c.toNat < 127

theorem presents_iff {headers : H} {expected : Str} :
    presents headers expected ↔
      (Multimap.get headers HeaderName.authorization).bind HeaderValue.toStr = some expected := by
  rw [presents]
  rcases (Multimap.get headers HeaderName.authorization).bind HeaderValue.toStr with - | v
  · exact iff_of_false Bool.false_ne_true fun h ↦ nomatch h
  · rw [Option.map_some, Option.getD_some, secretEq_eq_true_iff, Option.some_inj]

theorem IsReadable.of_presents {headers : H} {expected : Str} (h : presents headers expected) :
    IsReadable expected := by
  obtain ⟨line, -, hline⟩ := Option.bind_eq_some_iff.1 (presents_iff.1 h)
  exact (HeaderValue.toStr_eq_some_iff.1 hline).2

/-- A request with another first `Authorization` line. -/
def withAuthorization (req : Request H E B) (line : HeaderValue) : Request H E B :=
  { req with inner :=
    { req.inner with headers := Multimap.insert req.headers HeaderName.authorization line } }

theorem presents_withAuthorization (req : Request H E B) {s : Str} (h : IsReadable s) :
    ∃ line, presents (withAuthorization req line).headers s := by
  have hbytes : (Text.utf8 s).all isHeaderValueByte := by
    have hascii : ∀ c ∈ s, c.toNat < 128 := fun c hc ↦ by
      have := h c hc
      omega
    rw [Text.utf8_of_ascii hascii, List.all_eq_true]
    intro b hb
    obtain ⟨c, hc, rfl⟩ := List.mem_map.1 hb
    have hnat := Text.toNat_ofNat_of_ascii (hascii c hc)
    have hchar := h c hc
    simp only [isHeaderValueByte, Bool.or_eq_true, Bool.and_eq_true, decide_eq_true_eq,
      bne_iff_ne, ne_eq, beq_iff_eq, ← UInt8.toNat_inj, UInt8.le_iff_toNat_le, hnat]
    show 32 ≤ c.toNat ∧ ¬c.toNat = 127 ∨ c.toNat = 9
    omega
  refine ⟨⟨Text.utf8 s, hbytes⟩, presents_iff.2 ?_⟩
  have hget : Multimap.get (withAuthorization req ⟨Text.utf8 s, hbytes⟩).headers
      HeaderName.authorization = some ⟨Text.utf8 s, hbytes⟩ := by
    show (Multimap.getAll (Multimap.insert req.headers _ _) _).head? = _
    rw [Multimap.getAll_insert, if_pos rfl, List.head?_cons]
  rw [hget, Option.bind_some]
  exact HeaderValue.toStr_eq_some_iff.2 ⟨rfl, h⟩

section Secrets

variable [Base64Lib]

/-- The text that a strategy with a fixed secret expects. -/
def expected : AuthStrategy H E B → Option Str
  | bearer token => some (bearerText token)
  | basic username password => some (basicText username password)
  | custom _ => none

theorem isAuthorized_eq_presents {self : AuthStrategy H E B} {s : Str}
    (h : self.expected = some s) (req : Request H E B) :
    self.isAuthorized req = presents req.headers s := by
  rcases self with token | ⟨username, password⟩ | validator
  · rw [← Option.some.inj h]
    rfl
  · rw [← Option.some.inj h]
    rfl
  · exact nomatch h

/-- Two strategies have the same secret: the same token, or the same text around the colon. User
names with a colon make this less than the same credentials. -/
def SameSecret : AuthStrategy H E B → AuthStrategy H E B → Prop
  | bearer token, bearer token' => token = token'
  | basic username password, basic username' password' =>
    username ++ ':' :: password = username' ++ ':' :: password'
  | _, _ => False

omit [Multimap H HeaderName HeaderValue] in
theorem sameSecret_iff [LawfulBase64Lib] {a b : AuthStrategy H E B} {s t : Str}
    (ha : a.expected = some s) (hb : b.expected = some t) : SameSecret a b ↔ s = t := by
  rcases a with token | ⟨username, password⟩ | validator
  · obtain rfl := Option.some.inj ha
    rcases b with token' | ⟨username', password'⟩ | validator
    · obtain rfl := Option.some.inj hb
      exact (List.append_cancel_left_eq _ _ _).to_iff.symm
    · obtain rfl := Option.some.inj hb
      -- the scheme differs in its second letter
      exact iff_of_false id fun h ↦
        absurd (List.cons.inj (List.cons.inj h).2).1 (by decide)
    · exact nomatch hb
  · obtain rfl := Option.some.inj ha
    rcases b with token' | ⟨username', password'⟩ | validator
    · obtain rfl := Option.some.inj hb
      exact iff_of_false id fun h ↦
        absurd (List.cons.inj (List.cons.inj h).2).1 (by decide)
    · obtain rfl := Option.some.inj hb
      show _ = _ ↔ _ ++ _ = _ ++ _
      rw [List.append_cancel_left_eq, LawfulBase64Lib.encode_injective.eq_iff,
        Text.utf8_injective.eq_iff]
    · exact nomatch hb
  · exact nomatch ha

/-- **Which secrets are told apart**: some request is authorized by two strategies, and it can be
any request but for its `Authorization` line, exactly if they have the same secret and its text can
be sent. Then the two authorize the same requests. -/
theorem sharesRequest_iff [LawfulBase64Lib] {a b : AuthStrategy H E B} {s t : Str}
    (ha : a.expected = some s) (hb : b.expected = some t) (req : Request H E B) :
    ((∃ line, a.isAuthorized (withAuthorization req line) ∧
        b.isAuthorized (withAuthorization req line)) ↔ SameSecret a b ∧ IsReadable s) ∧
      ((∃ req : Request H E B, a.isAuthorized req ∧ b.isAuthorized req) →
        ∀ req : Request H E B, a.isAuthorized req = b.isAuthorized req) := by
  have hsame : ∀ req : Request H E B, a.isAuthorized req → b.isAuthorized req → s = t := by
    intro req hreq hreq'
    rw [isAuthorized_eq_presents ha] at hreq
    rw [isAuthorized_eq_presents hb] at hreq'
    exact Option.some.inj ((presents_iff.1 hreq).symm.trans (presents_iff.1 hreq'))
  refine ⟨⟨?_, ?_⟩, ?_⟩
  · rintro ⟨line, hreq, hreq'⟩
    refine ⟨(sameSecret_iff ha hb).2 (hsame _ hreq hreq'), ?_⟩
    rw [isAuthorized_eq_presents ha] at hreq
    exact .of_presents hreq
  · rintro ⟨hsecret, hreadable⟩
    obtain ⟨line, hline⟩ := presents_withAuthorization req hreadable
    refine ⟨line, ?_, ?_⟩
    · rw [isAuthorized_eq_presents ha]
      exact hline
    · rw [isAuthorized_eq_presents hb, ← (sameSecret_iff ha hb).1 hsecret]
      exact hline
  · rintro ⟨req, hreq, hreq'⟩ req'
    rw [isAuthorized_eq_presents ha, isAuthorized_eq_presents hb, hsame req hreq hreq']

end Secrets

section Witness

attribute [local instance] Base64.standard Base64.lawful_standard

/-- The colon of one pair is inside the username of the other. -/
theorem sharesRequest_iff_colon :
    let req : Request (AssocList HeaderName HeaderValue) Unit Unit :=
      .fromRequestParts ⟨.get, { path := "/".toList }, ⟨[]⟩, (), (), .http11⟩ ()
    ∃ line, (basic "a:b".toList "c".toList).isAuthorized (withAuthorization req line) ∧
      (basic "a".toList "b:c".toList).isAuthorized (withAuthorization req line) := by
  intro req
  have hreadable : IsReadable (basicText "a:b".toList "c".toList) := by
    have hall : (basicText "a:b".toList "c".toList).all
        fun c ↦ c.toNat = 9 || (32 ≤ c.toNat && c.toNat < 127) := by decide +kernel
    intro c hc
    simpa using List.all_eq_true.1 hall c hc
  exact (sharesRequest_iff rfl rfl req).1.2 ⟨rfl, hreadable⟩

end Witness

end AuthStrategy
