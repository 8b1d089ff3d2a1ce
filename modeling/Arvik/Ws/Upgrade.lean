import Arvik.Core.FieldList
import Arvik.Foundation.Base64
import Arvik.Foundation.Preference

/-!
# The WebSocket handshake

The extractor of a WebSocket checks the method and four headers, and takes the protocols that the
client offers from a fifth; `protocols` then selects the first of these that the server lists.

`Connection`, `Upgrade` and `Sec-WebSocket-Protocol` are lists, which may be sent in several lines
(`IsHandshake`, `offer`). The extractor reads the first line of each, and takes that of `Upgrade` as
a whole. So a request that it takes is always a handshake (`isHandshake_of_fromRequest`), and what
it selects is always offered (`mem_offer_of_selected`), but the converse needs first lines that tell
all: `negotiates_iff`.

The specification reads the lines as the standard does: all of them, as lists, with their elements
compared up to case or not as each header has it. Every check of the extractor is characterized by
what it asks of the first line, and `FirstLinesSuffice` is the condition that the other lines do not
say more. The texts are compared as bytes on the side of the standard and as text on the side of the
code, which is why it matters that a word of ASCII letters is found in one exactly where it is in
the other.
-/

namespace WebSocket

/-! ### The extractor -/

/-- What is appended to the key of a client. -/
def guid : Bytes :=
  Text.utf8 "258EAFA5-E914-47DA-95CA-C5AB0DC85B11".toList

/-- The digest and the pending upgrades, which come from libraries, as the encoder does. -/
class UpgradeLib (E : Type) (U : outParam Type) where
  sha1 : Bytes → Bytes
  /-- The upgrade that is pending for a request, by its extensions. -/
  pending : E → U

/-- The configuration of a connection. -/
structure WebSocketConfig where
  maxMessageSize : Option ℕ := some (64 * 1024 * 1024)
  maxFrameSize : Option ℕ := some (16 * 1024 * 1024)
  acceptUnmaskedFrames : Bool := false
  protocols : List Str := []
  writeBufferSize : ℕ := 128 * 1024
  maxWriteBufferSize : ℕ := 512 * 1024

structure WebSocketUpgrade (U : Type) where
  onUpgrade : U
  acceptKey : Str
  selectedProtocol : Option Str
  clientProtocols : List Str
  config : WebSocketConfig

inductive WebSocketUpgradeRejection
  | methodNotGet
  | connectionNotUpgrade
  | upgradeNotWebSocket
  | missingSecWebSocketKey
  | invalidWebSocketVersionHeader
  | connectionNotUpgradable
  deriving DecidableEq

variable {H E B U : Type} [Multimap H HeaderName HeaderValue]

/-- The value for `Sec-WebSocket-Accept`. -/
def computeAcceptKey (E : Type) {U : Type} [Base64Lib] [UpgradeLib E U] (clientKey : Str) :
    Str :=
  Base64Lib.encode (UpgradeLib.sha1 E (Text.utf8 clientKey ++ guid))

/-- The first line of a header, if it can be read as text. -/
def firstText (headers : H) (name : HeaderName) : Option Str :=
  (Multimap.get headers name).bind HeaderValue.toStr

def connectionOk (headers : H) : Bool :=
  (firstText headers .connection).any fun v ↦
    (v.splitOn ',').any fun t ↦ Text.eqIgnoreAsciiCase (Text.trim t) "upgrade".toList

def upgradeOk (headers : H) : Bool :=
  (firstText headers .upgrade).any fun v ↦
    Text.eqIgnoreAsciiCase (Text.trim v) "websocket".toList

def versionOk (headers : H) : Bool :=
  (firstText headers .secWebsocketVersion).any fun v ↦ Text.trim v = "13".toList

/-- The protocols that the first line offers. -/
def clientProtocols (headers : H) : List Str :=
  ((firstText headers .secWebsocketProtocol).map fun v ↦
    ((v.splitOn ',').map Text.trim).filter fun p ↦ !p.isEmpty).getD []

/-- The extractor. -/
def fromRequest [Base64Lib] [UpgradeLib E U] (req : Request H E B) :
    Except WebSocketUpgradeRejection (WebSocketUpgrade U) :=
  if req.method ≠ .get then .error .methodNotGet
  else if !connectionOk req.headers then .error .connectionNotUpgrade
  else if !upgradeOk req.headers then .error .upgradeNotWebSocket
  else if !versionOk req.headers then .error .invalidWebSocketVersionHeader
  else
    match (firstText req.headers .secWebsocketKey).map Text.trim with
    | none => .error .missingSecWebSocketKey
    | some secKey => .ok
        { onUpgrade := UpgradeLib.pending req.inner.extensions
          acceptKey := computeAcceptKey E secKey
          selectedProtocol := none
          clientProtocols := clientProtocols req.headers
          config := {} }

namespace WebSocketUpgrade

/-- Set the protocols of the server: the first of the client's that is among them is selected. -/
def protocols (self : WebSocketUpgrade U) (our : List Str) : WebSocketUpgrade U :=
  { self with
    selectedProtocol := self.clientProtocols.find? fun cp ↦ our.any (· = cp)
    config := { self.config with protocols := our } }

end WebSocketUpgrade

/-! ### Handshakes -/

/-- One of the elements of a list header is the word, up to case. -/
def ListsWord (headers : H) (name : HeaderName) (word : Str) : Prop :=
  ∃ element ∈ FieldList.elements (Multimap.getAll headers name),
    Text.eqIgnoreAsciiCase element word

/-- The request asks for a WebSocket. The version and the key are no lists: the first line of the
version counts, and a key may be anything. -/
structure IsHandshake (req : Request H E B) : Prop where
  method : req.method = .get
  connection : ListsWord req.headers .connection "upgrade".toList
  upgrade : ListsWord req.headers .upgrade "websocket".toList
  version : ∃ line, Multimap.get req.headers .secWebsocketVersion = some line ∧
    FieldList.trimOws (FieldList.chars line) = "13".toList
  key : Multimap.containsKey req.headers HeaderName.secWebsocketKey

/-- The text of an element, whose characters stand for bytes. -/
def elementText (element : Str) : Option Str :=
  Text.fromUtf8 (element.map fun c ↦ UInt8.ofNat c.toNat)

/-- The protocols that some lines offer together, in order. An element that is no UTF-8 is none: a
server cannot list it. -/
def offer (lines : List HeaderValue) : List Str :=
  ((FieldList.elements lines).filter fun element ↦ !element.isEmpty).filterMap elementText

example : offer [.fromStatic "chat,, json", .fromStatic "xml"] =
    ["chat".toList, "json".toList, "xml".toList] := by
  decide +kernel

/-- The protocols of a request. -/
def offered (headers : H) : List Str :=
  offer (Multimap.getAll headers HeaderName.secWebsocketProtocol)

/-- The extractor takes the handshakes, and then the first protocol is selected that the client
offers and the server lists. -/
structure Negotiates [Base64Lib] [UpgradeLib E U] (req : Request H E B) : Prop where
  accepts : (∃ upgrade, fromRequest req = .ok upgrade) ↔ IsHandshake req
  selects : ∀ upgrade, fromRequest req = .ok upgrade → ∀ our,
    (upgrade.protocols our).selectedProtocol = (offered req.headers).find? (· ∈ our)

/-- The first lines tell all there is to a request: every check that all lines together would pass
is passed by the first line of its header. -/
structure FirstLinesSuffice (headers : H) : Prop where
  connection : ∃ line, Multimap.get headers .connection = some line ∧ line.toStr.isSome ∧
    ∃ element ∈ FieldList.elements [line], Text.eqIgnoreAsciiCase element "upgrade".toList
  upgrade : ∃ line, Multimap.get headers .upgrade = some line ∧
    Text.eqIgnoreAsciiCase (FieldList.trimOws (FieldList.chars line)) "websocket".toList
  key : ∃ line, Multimap.get headers .secWebsocketKey = some line ∧ line.toStr.isSome
  protocols : ∀ protocol ∈ offered headers, ∃ line,
    Multimap.get headers .secWebsocketProtocol = some line ∧ line.toStr.isSome ∧
      protocol ∈ offer [line]

/-! ### What the checks look at -/

theorem any_firstText_iff {headers : H} {name : HeaderName} {p : Str → Bool} :
    (firstText headers name).any p ↔
      ∃ line, Multimap.get headers name = some line ∧ ∃ text, line.toStr = some text ∧ p text := by
  rw [Option.any_eq_true]
  constructor
  · rintro ⟨text, htext, hp⟩
    obtain ⟨line, hline, htext⟩ := Option.bind_eq_some_iff.1 htext
    exact ⟨line, hline, text, htext, hp⟩
  · rintro ⟨line, hline, text, htext, hp⟩
    exact ⟨text, Option.bind_eq_some_iff.2 ⟨line, hline, htext⟩, hp⟩

/-- In a text that is a word up to case, the lower case of every character is in the word. -/
theorem mem_of_eqIgnoreAsciiCase {s word : Str} (h : Text.eqIgnoreAsciiCase s word) {c : Char}
    (hc : c ∈ s) : Text.toAsciiLowercase c ∈ word.map Text.toAsciiLowercase :=
  Text.eqIgnoreAsciiCase_iff.1 h ▸ List.mem_map_of_mem hc

/-- The characters of a word in some case are printable, and none is a comma. -/
theorem graphic_of_eqIgnoreAsciiCase {s : Str}
    (h : Text.eqIgnoreAsciiCase s "websocket".toList) {c : Char} (hc : c ∈ s) :
    c ≠ ',' ∧ 33 ≤ c.toNat ∧ c.toNat < 127 := by
  have hletters : ("websocket".toList.map Text.toAsciiLowercase).all fun d ↦
      97 ≤ d.toNat && d.toNat ≤ 122 := by decide
  have hletter := List.all_eq_true.1 hletters _ (mem_of_eqIgnoreAsciiCase h hc)
  rw [Bool.and_eq_true, decide_eq_true_eq, decide_eq_true_eq, Text.toNat_toAsciiLowercase]
    at hletter
  have hnat : (65 ≤ c.toNat ∧ c.toNat ≤ 90) ∨ (97 ≤ c.toNat ∧ c.toNat ≤ 122) := by
    split at hletter
    · next hupper => exact .inl hupper
    · exact .inr hletter
  refine ⟨?_, by omega, by omega⟩
  rintro rfl
  exact absurd hnat (by decide)

theorem connectionOk_iff {headers : H} :
    connectionOk headers ↔ ∃ line, Multimap.get headers .connection = some line ∧
      line.toStr.isSome ∧
        ∃ element ∈ FieldList.elements [line],
          Text.eqIgnoreAsciiCase element "upgrade".toList := by
  rw [connectionOk, any_firstText_iff]
  refine exists_congr fun line ↦ and_congr_right fun _ ↦ ?_
  rw [Option.isSome_iff_exists, ← exists_and_right]
  refine exists_congr fun text ↦ and_congr_right fun htext ↦ ?_
  rw [FieldList.elements_of_toStr htext, List.any_eq_true]
  simp only [List.mem_map, exists_exists_and_eq_and]

/-- A condition that only printable texts meet may be asked of the bytes of a line. -/
theorem exists_trim_iff {line : HeaderValue} {p : Str → Prop}
    (hp : ∀ s, p s → ∀ c ∈ s, 32 ≤ c.toNat ∧ c.toNat < 127) :
    (∃ text, line.toStr = some text ∧ p (Text.trim text)) ↔
      p (FieldList.trimOws (FieldList.chars line)) := by
  have htrim : ∀ {text}, line.toStr = some text →
      FieldList.trimOws (FieldList.chars line) = Text.trim text := fun htext ↦ by
    rw [FieldList.chars_of_toStr htext, FieldList.trimOws_of_toStr htext (List.Subset.refl _)]
  constructor
  · rintro ⟨text, htext, h⟩
    rwa [htrim htext]
  · intro h
    obtain ⟨text, htext⟩ :=
      Option.isSome_iff_exists.1 (FieldList.isSome_toStr_of_trimOws (hp _ h))
    exact ⟨text, htext, htrim htext ▸ h⟩

theorem upgradeOk_iff {headers : H} :
    upgradeOk headers ↔ ∃ line, Multimap.get headers .upgrade = some line ∧
      Text.eqIgnoreAsciiCase (FieldList.trimOws (FieldList.chars line)) "websocket".toList := by
  rw [upgradeOk, any_firstText_iff]
  refine exists_congr fun line ↦ and_congr_right fun _ ↦
    exists_trim_iff (p := fun s ↦ Text.eqIgnoreAsciiCase s "websocket".toList) fun s hs c hc ↦ ?_
  have hgraphic := (graphic_of_eqIgnoreAsciiCase hs hc).2
  omega

theorem versionOk_iff {headers : H} :
    versionOk headers ↔ ∃ line, Multimap.get headers .secWebsocketVersion = some line ∧
      FieldList.trimOws (FieldList.chars line) = "13".toList := by
  have hdigits : "13".toList.all fun c ↦ 32 ≤ c.toNat && c.toNat < 127 := by decide
  rw [versionOk, any_firstText_iff]
  simp only [decide_eq_true_eq]
  refine exists_congr fun line ↦ and_congr_right fun _ ↦
    exists_trim_iff (p := fun s ↦ s = "13".toList) fun s hs c hc ↦ ?_
  simpa using List.all_eq_true.1 hdigits c (hs ▸ hc)

theorem isSome_firstText_iff {headers : H} {name : HeaderName} :
    (firstText headers name).isSome ↔
      ∃ line, Multimap.get headers name = some line ∧ line.toStr.isSome := by
  rw [firstText, Option.isSome_iff_exists]
  simp only [Option.bind_eq_some_iff, Option.isSome_iff_exists]
  rw [exists_comm]
  simp only [exists_and_left]

/-! ### Taking a request -/

/-- The extractor takes what passes its checks. -/
theorem exists_fromRequest_iff [Base64Lib] [UpgradeLib E U] {req : Request H E B} :
    (∃ upgrade, fromRequest req = .ok upgrade) ↔
      req.method = .get ∧ connectionOk req.headers ∧ upgradeOk req.headers ∧
        versionOk req.headers ∧ (firstText req.headers .secWebsocketKey).isSome := by
  have hrejected : ¬∃ _ : WebSocketUpgrade U, False := by
    rintro ⟨-, h⟩
    exact h
  rw [fromRequest]
  split_ifs with hmethod hconnection hupgrade hversion
  · exact iff_of_false hrejected fun h ↦ hmethod h.1
  · exact iff_of_false hrejected fun h ↦ by simp [h.2.1] at hconnection
  · exact iff_of_false hrejected fun h ↦ by simp [h.2.2.1] at hupgrade
  · exact iff_of_false hrejected fun h ↦ by simp [h.2.2.2.1] at hversion
  · simp only [ne_eq, not_not, Bool.not_eq_true', Bool.not_eq_false] at *
    rcases firstText req.headers .secWebsocketKey with - | key
    · exact iff_of_false (by rintro ⟨_, h⟩; cases h) fun h ↦ Bool.false_ne_true h.2.2.2.2
    · exact iff_of_true ⟨_, rfl⟩ ⟨hmethod, hconnection, hupgrade, hversion, rfl⟩

theorem clientProtocols_of_fromRequest [Base64Lib] [UpgradeLib E U] {req : Request H E B}
    {upgrade : WebSocketUpgrade U} (h : fromRequest req = .ok upgrade) :
    upgrade.clientProtocols = clientProtocols req.headers := by
  rw [fromRequest] at h
  split_ifs at h
  split at h
  · cases h
  · obtain rfl := Except.ok.inj h
    rfl

/-- The elements of the first line are among those of all lines. -/
theorem mem_elements_of_get {headers : H} {name : HeaderName} {line : HeaderValue}
    (h : Multimap.get headers name = some line) {element : Str}
    (helement : element ∈ FieldList.elements [line]) :
    element ∈ FieldList.elements (Multimap.getAll headers name) := by
  have hmem : line ∈ Multimap.getAll headers name := List.mem_of_head? h
  exact (FieldList.mem_elements_iff (List.ne_nil_of_mem hmem)).2 ⟨line, hmem, helement⟩

/-- A line that is one word has the word for an element. -/
theorem trimOws_chars_mem_elements {line : HeaderValue}
    (h : Text.eqIgnoreAsciiCase (FieldList.trimOws (FieldList.chars line)) "websocket".toList) :
    FieldList.trimOws (FieldList.chars line) ∈ FieldList.elements [line] := by
  have hcomma : ',' ∉ FieldList.chars line := fun hmem ↦ by
    rcases FieldList.mem_trimOws hmem with hows | hmem
    · exact absurd hows (by decide)
    · exact (graphic_of_eqIgnoreAsciiCase h hmem).1 rfl
  rw [FieldList.elements, List.map_singleton, List.intercalate_singleton,
    List.splitOn_eq_singleton hcomma]
  exact List.mem_singleton_self _

/-- **What is taken is a handshake.** What the first lines pass, all lines together pass as well. -/
theorem isHandshake_of_fromRequest [Base64Lib] [UpgradeLib E U] {req : Request H E B}
    {upgrade : WebSocketUpgrade U} (h : fromRequest req = .ok upgrade) : IsHandshake req := by
  obtain ⟨hmethod, hconnection, hupgrade, hversion, hkey⟩ := exists_fromRequest_iff.1 ⟨upgrade, h⟩
  obtain ⟨line, hline, -, element, helement, hword⟩ := connectionOk_iff.1 hconnection
  obtain ⟨line', hline', hword'⟩ := upgradeOk_iff.1 hupgrade
  obtain ⟨line'', hline'', -⟩ := isSome_firstText_iff.1 hkey
  exact
    { method := hmethod
      connection := ⟨element, mem_elements_of_get hline helement, hword⟩
      upgrade := ⟨_, mem_elements_of_get hline' (trimOws_chars_mem_elements hword'), hword'⟩
      version := versionOk_iff.1 hversion
      key := decide_eq_true (List.ne_nil_of_mem (List.mem_of_head? hline'')) }

/-! ### Offers -/

theorem elementText_of_ascii {element : Str} (h : ∀ c ∈ element, c.toNat < 128) :
    elementText element = some element := by
  rw [elementText, ← Text.utf8_of_ascii h, Text.fromUtf8_utf8]

theorem trim_subset (s : Str) : Text.trim s ⊆ s := fun _ hc ↦
  (List.dropWhile_sublist _).subset ((Text.trimEnd_prefix _).subset hc)

/-- What a line that can be read offers, as its text is split and trimmed. -/
theorem offer_of_toStr {line : HeaderValue} {text : Str} (h : line.toStr = some text) :
    offer [line] = ((text.splitOn ',').map Text.trim).filter fun p ↦ !p.isEmpty := by
  rw [offer, FieldList.elements_of_toStr h]
  refine (List.filterMap_congr fun element helement ↦ ?_).trans List.filterMap_some
  obtain ⟨part, hpart, rfl⟩ := List.mem_map.1 (List.mem_of_mem_filter helement)
  refine elementText_of_ascii fun c hc ↦ ?_
  have hvisible := (HeaderValue.toStr_eq_some_iff.1 h).2 c
    ((Text.mem_splitOn hpart).2 (trim_subset part hc))
  omega

/-- The first line offers first. -/
theorem offer_cons (line : HeaderValue) (lines : List HeaderValue) :
    offer (line :: lines) = offer [line] ++ offer lines := by
  rcases lines with - | ⟨next, lines⟩
  · exact (List.append_nil _).symm
  · rw [offer, FieldList.elements_cons_cons, List.filter_append, List.filterMap_append, offer,
      offer]

/-- The extractor has the beginning of what is offered. -/
theorem exists_offered_eq_append (headers : H) :
    ∃ rest, offered headers = clientProtocols headers ++ rest := by
  rw [offered, clientProtocols, firstText, Multimap.get]
  rcases Multimap.getAll headers HeaderName.secWebsocketProtocol with - | ⟨line, lines⟩
  · exact ⟨[], rfl⟩
  · rw [List.head?_cons, Option.bind_some]
    rcases htext : line.toStr with - | text
    · exact ⟨_, rfl⟩
    · refine ⟨offer lines, ?_⟩
      rw [Option.map_some, Option.getD_some, ← offer_of_toStr htext, offer_cons]

theorem mem_clientProtocols_iff {headers : H} {protocol : Str} :
    protocol ∈ clientProtocols headers ↔
      ∃ line, Multimap.get headers .secWebsocketProtocol = some line ∧ line.toStr.isSome ∧
        protocol ∈ offer [line] := by
  rw [clientProtocols, firstText]
  rcases Multimap.get headers HeaderName.secWebsocketProtocol with - | line
  · exact iff_of_false List.not_mem_nil fun ⟨_, h, _⟩ ↦ nomatch h
  · rw [Option.bind_some]
    rcases htext : line.toStr with - | text
    · refine iff_of_false List.not_mem_nil fun ⟨line', hline, hsome, _⟩ ↦ ?_
      rw [← Option.some.inj hline, htext] at hsome
      cases hsome
    · rw [Option.map_some, Option.getD_some, ← offer_of_toStr htext]
      constructor
      · exact fun h ↦ ⟨line, rfl, htext ▸ rfl, h⟩
      · rintro ⟨line', hline, -, h⟩
        rwa [Option.some.inj hline]

/-! ### Selecting -/

theorem selectedProtocol_protocols (upgrade : WebSocketUpgrade U) (our : List Str) :
    (upgrade.protocols our).selectedProtocol = upgrade.clientProtocols.find? (· ∈ our) := by
  show upgrade.clientProtocols.find? (fun cp ↦ our.any (· = cp)) = _
  congr 1
  funext cp
  rw [List.any_eq, decide_eq_decide]
  simp

/-- **What is selected is offered by the client**, and listed by the server. The first line is among
the lines, so its elements are among those of all lines. -/
theorem mem_offer_of_selected [Base64Lib] [UpgradeLib E U] {req : Request H E B}
    {upgrade : WebSocketUpgrade U} {our : List Str} {protocol : Str}
    (h : fromRequest req = .ok upgrade)
    (hselected : (upgrade.protocols our).selectedProtocol = some protocol) :
    protocol ∈ offered req.headers ∧ protocol ∈ our := by
  rw [selectedProtocol_protocols, clientProtocols_of_fromRequest h] at hselected
  obtain ⟨rest, hrest⟩ := exists_offered_eq_append req.headers
  have hlisted := List.find?_some hselected
  exact ⟨hrest ▸ List.mem_append_left rest (List.mem_of_find?_eq_some hselected),
    of_decide_eq_true hlisted⟩

/-- The extractor's list selects for every server as the whole offer does, if the first line has all
that is offered. -/
theorem forall_find?_iff (headers : H) :
    (∀ our : List Str,
        (clientProtocols headers).find? (· ∈ our) = (offered headers).find? (· ∈ our)) ↔
      ∀ protocol ∈ offered headers, protocol ∈ clientProtocols headers := by
  obtain ⟨rest, hrest⟩ := exists_offered_eq_append headers
  rw [hrest]
  exact Preference.find?_append_iff

/-- **When the extractor negotiates**: the first lines of a handshake tell all there is to it. What
is taken is a handshake in any case, and what is selected was offered. -/
theorem negotiates_iff [Base64Lib] [UpgradeLib E U] {req : Request H E B} :
    Negotiates req ↔ (IsHandshake req → FirstLinesSuffice req.headers) := by
  constructor
  · intro h hreq
    obtain ⟨upgrade, hok⟩ := h.accepts.2 hreq
    obtain ⟨-, hconnection, hupgrade, -, hkey⟩ := exists_fromRequest_iff.1 ⟨upgrade, hok⟩
    refine ⟨connectionOk_iff.1 hconnection, upgradeOk_iff.1 hupgrade, isSome_firstText_iff.1 hkey,
      fun protocol hprotocol ↦ mem_clientProtocols_iff.1 ?_⟩
    refine (forall_find?_iff req.headers).1 (fun our ↦ ?_) protocol hprotocol
    rw [← h.selects upgrade hok our, selectedProtocol_protocols, clientProtocols_of_fromRequest hok]
  · intro h
    refine ⟨⟨fun ⟨_, hok⟩ ↦ isHandshake_of_fromRequest hok, fun hreq ↦ ?_⟩,
      fun upgrade hok our ↦ ?_⟩
    · have hfirst := h hreq
      exact exists_fromRequest_iff.2 ⟨hreq.method, connectionOk_iff.2 hfirst.connection,
        upgradeOk_iff.2 hfirst.upgrade, versionOk_iff.2 hreq.version,
        isSome_firstText_iff.2 hfirst.key⟩
    · rw [selectedProtocol_protocols, clientProtocols_of_fromRequest hok]
      exact (forall_find?_iff req.headers).2 (fun protocol hprotocol ↦ mem_clientProtocols_iff.2
        ((h (isHandshake_of_fromRequest hok)).protocols protocol hprotocol)) our

section Counterexample

/-- A library that leaves digests out. -/
@[reducible]
private def plainUpgrade : UpgradeLib (Option Unit) Unit where
  sha1 := id
  pending _ := ()

attribute [local instance] Base64.standard plainUpgrade

/-- A handshake whose `Connection` is sent in two lines. -/
private def twoLines : Request (AssocList HeaderName HeaderValue) (Option Unit) Unit where
  inner := ⟨.get, { path := ['/'] },
    ⟨[(.connection, .fromStatic "keep-alive"), (.connection, .fromStatic "Upgrade"),
      (.upgrade, .fromStatic "websocket"), (.secWebsocketVersion, .fromStatic "13"),
      (.secWebsocketKey, .fromStatic "dGhlIHNhbXBsZSBub25jZQ==")]⟩, none, (), .http11⟩
  extensions := none

/-- The handshake is not taken, since `upgrade` is in the second line. -/
theorem not_negotiates_twoLines : ¬Negotiates twoLines := by
  intro h
  have hreq : IsHandshake twoLines :=
    { method := rfl
      connection := ⟨"Upgrade".toList, by decide, by decide⟩
      upgrade := ⟨"websocket".toList, by decide, by decide⟩
      version := ⟨.fromStatic "13", by decide, by decide⟩
      key := by decide }
  obtain ⟨-, hconnection, -⟩ := exists_fromRequest_iff.1 (h.accepts.2 hreq)
  exact absurd hconnection (by decide)

end Counterexample

end WebSocket
