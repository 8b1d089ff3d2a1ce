import Arvik.Core.ResponseBuilder
import Arvik.Foundation.Base64
import Arvik.Ws.Upgrade

/-!
# The answer to a WebSocket handshake

The extractor's result is configured and then answered: `onUpgrade` leaves a task behind that waits
for the connection, and switches protocols. A request that is not taken is answered by its
rejection.

What a client checks in the answer (`ClientAccepts`) is its own affair, stated over what it sent:
its key, and the protocols it offered. The answer to a request that was taken passes these checks,
and both ends hold the same protocol (`clientAccepts_onUpgrade`). A rejection that lists a version
is worth a second try with that version, and no other one is: `fromRequest_retried_iff`.

The answer is built by the response builder, and all its headers convert: that the accept key does
is a law of Base64, the others are fixed or come from a valid header. Then the answer is the list of
its headers (`onUpgrade_eq`), and the checks of the client read it. The digest is a parameter
without any law, since both ends compute the same function of the same key.
-/

namespace Tungstenite

/-- The settings of the library that are not left at their defaults. -/
structure WebSocketConfig where
  maxMessageSize : Option ℕ
  maxFrameSize : Option ℕ
  acceptUnmaskedFrames : Bool
  writeBufferSize : ℕ
  maxWriteBufferSize : ℕ
  deriving DecidableEq

end Tungstenite

namespace WebSocket

/-! ### Configuration -/

def WebSocketConfig.toTungstenite (self : WebSocketConfig) : Tungstenite.WebSocketConfig where
  maxMessageSize := self.maxMessageSize
  maxFrameSize := self.maxFrameSize
  acceptUnmaskedFrames := self.acceptUnmaskedFrames
  writeBufferSize := self.writeBufferSize
  maxWriteBufferSize := self.maxWriteBufferSize

/-- What the task has that serves the connection. -/
structure UpgradeTask (U : Type) where
  onUpgrade : U
  config : Tungstenite.WebSocketConfig
  /-- The protocol of the socket that the callback gets. -/
  protocol : Option Str

variable {H E B U : Type} [Multimap H HeaderName HeaderValue]

namespace WebSocketUpgrade

def maxMessageSize (self : WebSocketUpgrade U) (size : ℕ) : WebSocketUpgrade U :=
  { self with config := { self.config with maxMessageSize := some size } }

def maxFrameSize (self : WebSocketUpgrade U) (size : ℕ) : WebSocketUpgrade U :=
  { self with config := { self.config with maxFrameSize := some size } }

def acceptUnmaskedFrames (self : WebSocketUpgrade U) (accept : Bool) : WebSocketUpgrade U :=
  { self with config := { self.config with acceptUnmaskedFrames := accept } }

/-- The value that announces a protocol; one that is no header value is announced as empty. -/
def protocolValue (protocol : Str) : HeaderValue :=
  (HeaderValue.fromStr protocol).getD (.fromStatic "")

end WebSocketUpgrade

/-! ### Answers -/

/-- The constant values of an answer can be sent. -/
theorem all_isHeaderValueByte_upgrade : (Text.utf8 "upgrade".toList).all isHeaderValueByte := by
  decide

theorem all_isHeaderValueByte_websocket :
    (Text.utf8 "websocket".toList).all isHeaderValueByte := by
  decide

theorem all_isHeaderValueByte_version : (Text.utf8 "13".toList).all isHeaderValueByte := by
  decide

/-- The task for the connection, and the answer. There is none if the key is no header value, which
is a panic. -/
def onUpgrade [Extensions E] [FromBytes B] (self : WebSocketUpgrade U) :
    UpgradeTask U × Option (Response H E B) :=
  let builder : ResponseBuilder H E :=
    (((ResponseBuilder.new.status .switchingProtocols).header HeaderName.connection
      (HeaderValue.fromStatic "upgrade" all_isHeaderValueByte_upgrade)).header HeaderName.upgrade
        (HeaderValue.fromStatic "websocket" all_isHeaderValueByte_websocket)).header
          HeaderName.secWebsocketAccept self.acceptKey
  let builder := match self.selectedProtocol with
    | some protocol =>
      builder.header HeaderName.secWebsocketProtocol (WebSocketUpgrade.protocolValue protocol)
    | none => builder
  (⟨self.onUpgrade, self.config.toTungstenite, self.selectedProtocol⟩,
    builder.inner.map fun head ↦ ⟨head.status, head.headers, head.extensions, FromBytes.empty⟩)

/-! ### Rejections -/

namespace WebSocketUpgradeRejection

def display : WebSocketUpgradeRejection → Str
  | methodNotGet => "WebSocket upgrade requires GET method".toList
  | connectionNotUpgrade => "Connection header must contain 'upgrade'".toList
  | upgradeNotWebSocket => "Upgrade header must be 'websocket'".toList
  | missingSecWebSocketKey => "Sec-WebSocket-Key header is missing".toList
  | invalidWebSocketVersionHeader => "Sec-WebSocket-Version must be '13'".toList
  | connectionNotUpgradable =>
    "Connection is not upgradable — ensure you're using serve_app()".toList

def status : WebSocketUpgradeRejection → StatusCode
  | methodNotGet => .methodNotAllowed
  | invalidWebSocketVersionHeader => .upgradeRequired
  | connectionNotUpgradable => .internalServerError
  | _ => .badRequest

variable [Extensions E] [FromBytes B]

def intoResponse (self : WebSocketUpgradeRejection) : Response H E B :=
  let body := "\x7b\"error\":\"WebSocket upgrade failed\",\"reason\":\"".toList ++ self.display ++
    "\",\"code\":".toList ++ self.status.asStr ++ "\x7d".toList
  let builder : ResponseBuilder H E := (ResponseBuilder.new.status self.status).header
    HeaderName.contentType HeaderValue.applicationJson
  let builder := if self = invalidWebSocketVersionHeader then
      builder.header HeaderName.secWebsocketVersion
        (HeaderValue.fromStatic "13" all_isHeaderValueByte_version)
    else builder
  builder.body (FromBytes.fromBytes (Text.utf8 body))

end WebSocketUpgradeRejection

/-! ### Clients -/

/-- The digest that a client expects for the key it sent. -/
def expectedAccept (E : Type) {U : Type} [Base64Lib] [UpgradeLib E U] (keyLine : HeaderValue) :
    Str :=
  let key := (FieldList.trimOws (FieldList.chars keyLine)).map fun c ↦ UInt8.ofNat c.toNat
  Base64Lib.encode (UpgradeLib.sha1 E (key ++ guid))

/-- What a client checks in the answer to its request: the switch of protocols, the digest of its
own key, that no extension is announced, and at most one protocol, one that it offered. -/
structure ClientAccepts [Base64Lib] [UpgradeLib E U] (req : Request H E B) (r : Response H E B) :
    Prop where
  status : r.status = .switchingProtocols
  upgrade : ∃ line, Multimap.getAll r.headers HeaderName.upgrade = [line] ∧
    Text.eqIgnoreAsciiCase (FieldList.trimOws (FieldList.chars line)) "websocket".toList
  connection : ListsWord r.headers .connection "upgrade".toList
  accept : ∃ keyLine line, Multimap.get req.headers HeaderName.secWebsocketKey = some keyLine ∧
    Multimap.getAll r.headers HeaderName.secWebsocketAccept = [line] ∧
      line.toStr = some (expectedAccept E keyLine)
  extensions : Multimap.getAll r.headers HeaderName.secWebsocketExtensions = []
  protocol : Multimap.getAll r.headers HeaderName.secWebsocketProtocol = [] ∨
    ∃ protocol ∈ offered req.headers, ∃ line,
      Multimap.getAll r.headers HeaderName.secWebsocketProtocol = [line] ∧
        line.toStr = some protocol

/-- The protocol that an answer announces. -/
def announced (r : Response H E B) : Option Str :=
  firstText r.headers .secWebsocketProtocol

/-- The request again, with the version that an answer lists. -/
def retried (req : Request H E B) (r : Response H E B) : Request H E B :=
  match Multimap.get r.headers HeaderName.secWebsocketVersion with
  | some version =>
    { req with inner :=
        { req.inner with
          headers := Multimap.insert req.headers HeaderName.secWebsocketVersion version } }
  | none => req

/-! ### What is sent -/

section Answers

variable [Base64Lib] [UpgradeLib E U] {req : Request H E B} {upgrade : WebSocketUpgrade U}

/-- The key of a request that was taken is a text, and its digest is the client's. -/
theorem acceptKey_of_fromRequest (h : fromRequest req = .ok upgrade) :
    ∃ keyLine, Multimap.get req.headers HeaderName.secWebsocketKey = some keyLine ∧
      upgrade.acceptKey = expectedAccept E keyLine := by
  obtain ⟨-, -, -, -, hkey⟩ := exists_fromRequest_iff.1 ⟨upgrade, h⟩
  obtain ⟨keyLine, hline, hsome⟩ := isSome_firstText_iff.1 hkey
  obtain ⟨text, htext⟩ := Option.isSome_iff_exists.1 hsome
  refine ⟨keyLine, hline, ?_⟩
  have hfirst : firstText req.headers .secWebsocketKey = some text := by
    rw [firstText, hline, Option.bind_some, htext]
  rw [fromRequest, hfirst] at h
  split_ifs at h
  obtain rfl := Except.ok.inj h
  show computeAcceptKey E (Text.trim text) = _
  rw [computeAcceptKey, expectedAccept, FieldList.chars_of_toStr htext,
    FieldList.trimOws_of_toStr htext (List.Subset.refl _), Text.utf8_of_ascii fun c hc ↦ ?_]
  have := (HeaderValue.toStr_eq_some_iff.1 htext).2 c (trim_subset text hc)
  omega

omit [Base64Lib] [UpgradeLib E U] in
/-- A protocol that the extractor read is a header value that reads as the protocol. -/
theorem toStr_protocolValue {headers : H} {protocol : Str}
    (h : protocol ∈ clientProtocols headers) :
    (WebSocketUpgrade.protocolValue protocol).toStr = some protocol := by
  obtain ⟨line, -, hsome, hoffer⟩ := mem_clientProtocols_iff.1 h
  obtain ⟨text, htext⟩ := Option.isSome_iff_exists.1 hsome
  rw [offer_of_toStr htext] at hoffer
  obtain ⟨part, hpart, rfl⟩ := List.mem_map.1 (List.mem_of_mem_filter hoffer)
  -- the characters are those of the line
  have hchars : ∀ c ∈ Text.trim part, c.toNat = 9 ∨ 32 ≤ c.toNat ∧ c.toNat < 127 := fun c hc ↦
    (HeaderValue.toStr_eq_some_iff.1 htext).2 c ((Text.mem_splitOn hpart).2 (trim_subset part hc))
  have hascii : ∀ c ∈ Text.trim part, c.toNat < 128 := fun c hc ↦ by
    have := hchars c hc
    omega
  have hvalid : (Text.utf8 (Text.trim part)).all isHeaderValueByte := by
    refine List.all_eq_true.2 fun b hb ↦ ?_
    rw [Text.utf8_of_ascii hascii] at hb
    obtain ⟨c, hc, rfl⟩ := List.mem_map.1 hb
    have hnat := Text.toNat_ofNat_of_ascii (hascii c hc)
    rw [isHeaderValueByte, Bool.or_eq_true, Bool.and_eq_true, decide_eq_true_eq, bne_iff_ne,
      beq_iff_eq, UInt8.le_iff_toNat_le, ← UInt8.toNat_inj.ne, ← UInt8.toNat_inj, hnat]
    have := hchars c hc
    show 32 ≤ c.toNat ∧ c.toNat ≠ 127 ∨ c.toNat = 9
    omega
  refine HeaderValue.toStr_eq_some_iff.2 ⟨?_, hchars⟩
  rw [WebSocketUpgrade.protocolValue, HeaderValue.fromStr, HeaderValue.fromBytes, dif_pos hvalid]
  rfl

variable [Extensions E] [FromBytes B]

/-- The headers of an answer. -/
def switchingHeaders (acceptKey : HeaderValue) (selected : Option Str) :
    List (HeaderName × HeaderValue) :=
  [(.connection, .fromStatic "upgrade" all_isHeaderValueByte_upgrade),
    (.upgrade, .fromStatic "websocket" all_isHeaderValueByte_websocket),
    (.secWebsocketAccept, acceptKey)] ++ (selected.map fun protocol ↦
      (HeaderName.secWebsocketProtocol, WebSocketUpgrade.protocolValue protocol)).toList

omit [Base64Lib] [UpgradeLib E U] in
/-- The answer with its headers listed. -/
theorem onUpgrade_eq {acceptKey : HeaderValue}
    (h : HeaderValue.fromStr upgrade.acceptKey = some acceptKey) :
    (onUpgrade upgrade : UpgradeTask U × Option (Response H E B)).2 =
      some ((ResponseBuilder.ofPairs .switchingProtocols
        (switchingHeaders acceptKey upgrade.selectedProtocol)).body FromBytes.empty) := by
  rw [onUpgrade, ResponseBuilder.status_new, ResponseBuilder.header_ofPairs,
    ResponseBuilder.header_ofPairs, ResponseBuilder.header_ofPairs_of_fromStr _ h]
  rcases upgrade.selectedProtocol with - | protocol
  · rfl
  · dsimp only
    rw [ResponseBuilder.header_ofPairs]
    rfl

omit [Base64Lib] in
theorem valuesFor_switchingHeaders {key : HeaderName} (hkey : key ≠ .secWebsocketProtocol)
    (acceptKey : HeaderValue) (selected : Option Str) :
    Multimap.valuesFor key (switchingHeaders acceptKey selected) =
      Multimap.valuesFor key [(.connection, .fromStatic "upgrade"),
        (.upgrade, .fromStatic "websocket"), (.secWebsocketAccept, acceptKey)] := by
  rw [switchingHeaders, Multimap.valuesFor_append]
  rcases selected with - | protocol
  · exact List.append_nil _
  · have hother : Multimap.valuesFor key [(HeaderName.secWebsocketProtocol,
        WebSocketUpgrade.protocolValue protocol)] = [] := by
      rw [Multimap.valuesFor_cons, if_neg hkey.symm]
      rfl
    show _ ++ Multimap.valuesFor key [_] = _
    rw [hother, List.append_nil]

omit [Base64Lib] in
theorem valuesFor_protocol_switchingHeaders (acceptKey : HeaderValue) (selected : Option Str) :
    Multimap.valuesFor .secWebsocketProtocol (switchingHeaders acceptKey selected) =
      (selected.map WebSocketUpgrade.protocolValue).toList := by
  rcases selected with - | protocol <;> rfl

/-- **The handshake completes**: a request that was taken, whatever protocols the server lists, has
an answer that its client accepts, and the socket of the server has the protocol that the answer
announces. -/
theorem clientAccepts_onUpgrade [LawfulBase64Lib] (h : fromRequest req = .ok upgrade)
    (our : List Str) :
    ∃ r : Response H E B, (onUpgrade (upgrade.protocols our)).2 = some r ∧ ClientAccepts req r ∧
      announced r = (onUpgrade (H := H) (E := E) (B := B) (upgrade.protocols our)).1.protocol := by
  obtain ⟨keyLine, hkeyLine, hkey⟩ := acceptKey_of_fromRequest h
  have hvisible : ∀ c ∈ (upgrade.protocols our).acceptKey, 32 ≤ c.toNat ∧ c.toNat < 127 := by
    show ∀ c ∈ upgrade.acceptKey, _
    rw [hkey]
    exact fun _ ↦ LawfulBase64Lib.visible_of_mem_encode
  obtain ⟨acceptKey, haccept, htext⟩ := HeaderValue.fromStr_visible hvisible
  have hselected : ∀ protocol, (upgrade.protocols our).selectedProtocol = some protocol →
      protocol ∈ offered req.headers ∧
        (WebSocketUpgrade.protocolValue protocol).toStr = some protocol := fun protocol hp ↦ by
    refine ⟨(mem_offer_of_selected h hp).1, ?_⟩
    rw [selectedProtocol_protocols, clientProtocols_of_fromRequest h] at hp
    exact toStr_protocolValue (List.mem_of_find?_eq_some hp)
  refine ⟨_, onUpgrade_eq haccept, ?_⟩
  show ClientAccepts req _ ∧ announced _ = (upgrade.protocols our).selectedProtocol
  generalize (upgrade.protocols our).selectedProtocol = selected at hselected
  have hlines : ∀ key, Multimap.getAll ((ResponseBuilder.ofPairs .switchingProtocols
      (switchingHeaders acceptKey selected) : ResponseBuilder H E).body
        (FromBytes.empty : B)).headers key =
      Multimap.valuesFor key (switchingHeaders acceptKey selected) :=
    ResponseBuilder.getAll_body_ofPairs _
  refine ⟨⟨rfl, ⟨.fromStatic "websocket", ?_, by decide⟩, ?_,
    ⟨keyLine, acceptKey, hkeyLine, ?_, ?_⟩, ?_, ?_⟩, ?_⟩
  · rw [hlines, valuesFor_switchingHeaders (by decide)]
    rfl
  · refine ⟨"upgrade".toList, ?_, by decide⟩
    rw [hlines, valuesFor_switchingHeaders (by decide)]
    show "upgrade".toList ∈ FieldList.elements [.fromStatic "upgrade"]
    decide
  · rw [hlines, valuesFor_switchingHeaders (by decide)]
    rfl
  · rw [htext]
    exact congrArg some hkey
  · rw [hlines, valuesFor_switchingHeaders (by decide)]
    rfl
  · rw [hlines, valuesFor_protocol_switchingHeaders]
    rcases selected with - | protocol
    · exact .inl rfl
    · exact .inr ⟨protocol, (hselected protocol rfl).1, _, rfl, (hselected protocol rfl).2⟩
  · rw [announced, firstText, Multimap.get, hlines, valuesFor_protocol_switchingHeaders]
    rcases selected with - | protocol
    · rfl
    · exact (hselected protocol rfl).2

end Answers

/-! ### Trying again -/

section Retries

variable [Extensions E] [FromBytes B]

/-- A rejection lists the version of the server if the version was wrong, and otherwise none. -/
theorem get_version_intoResponse (rejection : WebSocketUpgradeRejection) :
    Multimap.get (rejection.intoResponse : Response H E B).headers .secWebsocketVersion =
      if rejection = .invalidWebSocketVersionHeader then some (.fromStatic "13") else none := by
  have hlines : ∀ (code : StatusCode) (items : List (HeaderName × HeaderValue)) (b : B),
      Multimap.get ((ResponseBuilder.ofPairs code items : ResponseBuilder H E).body b).headers
        .secWebsocketVersion = (Multimap.valuesFor .secWebsocketVersion items).head? := by
    intro code items b
    rw [Multimap.get, ResponseBuilder.getAll_body_ofPairs]
  rw [WebSocketUpgradeRejection.intoResponse, ResponseBuilder.status_new,
    ResponseBuilder.header_ofPairs]
  split_ifs with hrejection
  · rw [ResponseBuilder.header_ofPairs, hlines]
    rfl
  · rw [hlines]
    rfl

theorem firstText_insert_of_ne {headers : H} {name name' : HeaderName} (h : name ≠ name')
    (value : HeaderValue) :
    firstText (Multimap.insert headers name' value) name = firstText headers name := by
  rw [firstText, Multimap.get, Multimap.getAll_insert, if_neg h, ← Multimap.get, ← firstText]

variable [Base64Lib] [UpgradeLib E U] {req : Request H E B}
variable {rejection : WebSocketUpgradeRejection}

omit [Extensions E] [FromBytes B] in
/-- The version is looked at after the method and two headers, and before the key. -/
theorem checks_of_invalidVersion
    (h : fromRequest req = .error .invalidWebSocketVersionHeader) :
    req.method = .get ∧ connectionOk req.headers ∧ upgradeOk req.headers := by
  rw [fromRequest] at h
  split_ifs at h with hmethod hconnection hupgrade hversion
  · cases h
  · cases h
  · cases h
  · simp only [ne_eq, not_not, Bool.not_eq_true', Bool.not_eq_false] at hmethod hconnection hupgrade
    exact ⟨hmethod, hconnection, hupgrade⟩
  · split at h
    · cases h
    · cases h

/-- **A second try**, with the version that the answer to the first one lists, is taken exactly if
the version was what was wrong with a first try that had a key. -/
theorem fromRequest_retried_iff (h : fromRequest req = .error rejection) :
    (∃ upgrade, fromRequest (retried req (rejection.intoResponse : Response H E B)) = .ok upgrade) ↔
      rejection = .invalidWebSocketVersionHeader ∧
        (firstText req.headers .secWebsocketKey).isSome := by
  rw [retried, get_version_intoResponse]
  split_ifs with hrejection
  · subst hrejection
    obtain ⟨hmethod, hconnection, hupgrade⟩ := checks_of_invalidVersion h
    rw [exists_fromRequest_iff]
    show req.method = .get ∧ connectionOk (Multimap.insert req.headers _ _) ∧
      upgradeOk (Multimap.insert req.headers _ _) ∧ versionOk (Multimap.insert req.headers _ _) ∧
        (firstText (Multimap.insert req.headers _ _) _).isSome ↔ _
    have hversion : versionOk (Multimap.insert req.headers HeaderName.secWebsocketVersion
        (.fromStatic "13")) := by
      rw [versionOk, firstText, Multimap.get, Multimap.getAll_insert, if_pos rfl]
      decide
    rw [connectionOk, firstText_insert_of_ne (by decide), ← connectionOk, upgradeOk,
      firstText_insert_of_ne (by decide), ← upgradeOk, firstText_insert_of_ne (by decide)]
    exact ⟨fun h ↦ ⟨rfl, h.2.2.2.2⟩,
      fun h ↦ ⟨hmethod, hconnection, hupgrade, hversion, h.2⟩⟩
  · refine iff_of_false ?_ fun h ↦ hrejection h.1
    rintro ⟨upgrade, hok⟩
    rw [h] at hok
    cases hok

end Retries

section Witness

/-- The digest of the key of one client. -/
@[reducible]
private def keyDigest : UpgradeLib (Option Unit) Unit where
  sha1 bytes :=
    if bytes = Text.utf8 "AQIDBAUGBwgJCgsMDQ4PEA==".toList ++ guid then
      [11, 253, 39, 152, 120, 65, 206, 212, 145, 25, 29, 66, 192, 190, 147, 127, 134, 99, 194, 150]
    else []
  pending _ := ()

@[reducible]
private def noBytes : FromBytes Unit where
  empty := ()
  fromBytes _ := ()

attribute [local instance] Base64.standard Base64.lawful_standard keyDigest noBytes

/-- A client of some version. -/
private def client (version : String)
    (h : (Text.utf8 version.toList).all isHeaderValueByte := by decide) :
    Request (AssocList HeaderName HeaderValue) (Option Unit) Unit where
  inner := ⟨.get, { path := ['/'] },
    ⟨[(.connection, .fromStatic "keep-alive, Upgrade"),
      (.upgrade, .fromStatic "websocket" all_isHeaderValueByte_websocket),
      (.secWebsocketVersion, .fromStatic version h), (.secWebsocketProtocol, .fromStatic "chat"),
      (.secWebsocketKey, .fromStatic "AQIDBAUGBwgJCgsMDQ4PEA==")]⟩, none, (), .http11⟩
  extensions := none

theorem clientAccepts_onUpgrade_client : ∃ upgrade, fromRequest (client "13") = .ok upgrade ∧
    ∃ r : Response (AssocList HeaderName HeaderValue) (Option Unit) Unit,
      (onUpgrade (upgrade.protocols ["chat".toList])).2 = some r ∧
        ClientAccepts (client "13") r ∧ announced r = some "chat".toList ∧
          firstText r.headers .secWebsocketAccept = some "C/0nmHhBztSRGR1CwL6Tf4ZjwpY=".toList := by
  obtain ⟨upgrade, h⟩ := exists_fromRequest_iff.2
    (show (client "13").method = .get ∧ _ from ⟨rfl, by decide, by decide, by decide, by decide⟩)
  obtain ⟨r, hr, haccepts, hannounced⟩ := clientAccepts_onUpgrade h ["chat".toList]
  refine ⟨upgrade, h, r, hr, haccepts, hannounced.trans ?_, ?_⟩
  · show (upgrade.protocols _).selectedProtocol = _
    rw [selectedProtocol_protocols, clientProtocols_of_fromRequest h]
    decide
  · obtain ⟨keyLine, line, hkeyLine, hline, htext⟩ := haccepts.accept
    have hkey : keyLine = .fromStatic "AQIDBAUGBwgJCgsMDQ4PEA==" :=
      (Option.some.inj hkeyLine).symm
    rw [firstText, Multimap.get, hline, List.head?_cons, Option.bind_some, htext, hkey]
    decide +kernel

theorem fromRequest_retried_iff_client :
    ∃ upgrade, fromRequest (retried (client "8") (WebSocketUpgradeRejection.intoResponse
      .invalidWebSocketVersionHeader :
        Response (AssocList HeaderName HeaderValue) (Option Unit) Unit)) = .ok upgrade := by
  have h : fromRequest (client "8") =
      .error WebSocketUpgradeRejection.invalidWebSocketVersionHeader := by
    rw [fromRequest, if_neg (by decide), if_neg (by decide), if_neg (by decide),
      if_pos (by decide)]
  exact (fromRequest_retried_iff h).2 ⟨rfl, by decide⟩

end Witness

end WebSocket
