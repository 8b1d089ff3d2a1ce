import Arvik.Foundation.IpAddrParser
import Arvik.Middleware.ClientKey

/-!
# Clients behind trusted proxies

A proxy records the address its request came from as the last element of `X-Forwarded-For`, behind
what the client sent: at the end of the last line, or on a line of its own (`Records`). The lines of
a header are one list, so the client is the rightmost element that is not a trusted proxy.

Only the first line is looked at, and only if it is text throughout. So a client is identified if
its request arrives with one readable line, and otherwise only if the first line, which is its own,
happens to name it (`extractIp_eq_identity_iff`).

What the client sends is anything, so nothing may be assumed about the elements in front. The
proxies append behind them, and a chain of trusted proxies is a list of steps, each of which records
the address it was reached from; by induction on it the elements behind the client's own lines are
trusted addresses in front of which stands the client (`reports_of_records`). A search from the
right passes the trusted ones and stops there, if it gets to see them.

The identity is stated over the addresses and not over their texts, and the two are related because
the canonical text of an address is read back as that address.
-/

namespace RateLimit

variable {H E B : Type} [Multimap H HeaderName HeaderValue] [Extensions E]
  [Extensions.Slot E SocketAddr]

/-! ### What the proxy records -/

/-- The proxies that are trusted. -/
def ProxyTrust.proxies : ProxyTrust → List IpAddr
  | never => []
  | trusted proxies => proxies

/-- A text of one list element that stands for the client. -/
structure Names (recorded : HeaderValue) (client : IpAddr) (element : Str) : Prop where
  toStr : recorded.toStr = some element
  comma : ',' ∉ element
  fromStr : IpAddr.fromStr (Text.trim element) = some client

/-- The proxy adds a record to the lines of the client, as the last element: at the end of the last
line, or on a line of its own. Both are allowed, and the recipient cannot tell which was done. -/
inductive Records (recorded : HeaderValue) : List HeaderValue → List HeaderValue → Prop
  | newLine (lines : List HeaderValue) : Records recorded lines (lines ++ [recorded])
  | append (lines : List HeaderValue) (last line : HeaderValue)
      (hbytes : line.bytes = last.bytes ++ Text.utf8 [','] ++ recorded.bytes) :
      Records recorded (lines ++ [last]) (lines ++ [line])

/-- Who a request of a peer is from, if the peer is a proxy that reports the client. -/
def identity (trust : ProxyTrust) (addr : SocketAddr) (client : IpAddr) : IpAddr :=
  if addr.ip ∈ trust.proxies then client else addr.ip

/-! ### The walk over a line -/

/-- The elements the walk passes over: blank ones, and trusted proxies. -/
def PassedOver (proxies : List IpAddr) (element : Str) : Prop :=
  Text.trim element = [] ∨ ∃ hop ∈ proxies, IpAddr.fromStr (Text.trim element) = some hop

/-- Of the elements, rightmost first, the first one that is not passed over stands for the
client. -/
def Reports (proxies : List IpAddr) (client : IpAddr) (hops : List Str) : Prop :=
  ∃ passed element rest, hops = passed ++ element :: rest ∧
    (∀ e ∈ passed, PassedOver proxies e) ∧ IpAddr.fromStr (Text.trim element) = some client

theorem firstUntrusted_cons_of_passedOver {proxies : List IpAddr} {element : Str}
    (h : PassedOver proxies element) (rest : List Str) :
    firstUntrusted IpAddr.fromStr proxies (element :: rest) =
      firstUntrusted IpAddr.fromStr proxies rest := by
  rw [firstUntrusted]
  split_ifs with hblank
  · rfl
  · obtain ⟨hop, hhop, hfrom⟩ := h.resolve_left hblank
    rw [hfrom]
    exact if_neg (not_not_intro hhop)

theorem firstUntrusted_cons_of_fromStr {proxies : List IpAddr} {element : Str} {client : IpAddr}
    (h : IpAddr.fromStr (Text.trim element) = some client) (hclient : client ∉ proxies)
    (rest : List Str) :
    firstUntrusted IpAddr.fromStr proxies (element :: rest) = some client := by
  have hblank : Text.trim element ≠ [] := by
    intro hblank
    have hnil : IpAddr.fromStr [] = none := by decide
    rw [hblank, hnil] at h
    cases h
  rw [firstUntrusted, if_neg hblank, h]
  exact if_pos hclient

/-- Where the walk does not pass on, it ends, with what the element stands for. -/
theorem fromStr_of_firstUntrusted_cons {proxies : List IpAddr} {element : Str} {rest : List Str}
    {client : IpAddr} (hpassed : ¬PassedOver proxies element)
    (h : firstUntrusted IpAddr.fromStr proxies (element :: rest) = some client) :
    IpAddr.fromStr (Text.trim element) = some client := by
  rw [firstUntrusted, if_neg fun hblank ↦ hpassed (.inl hblank)] at h
  rcases hfrom : IpAddr.fromStr (Text.trim element) with - | ip
  · rw [hfrom] at h
    cases h
  · have hip : ip ∉ proxies := fun hip ↦ hpassed (.inr ⟨ip, hip, hfrom⟩)
    rw [hfrom] at h
    exact (if_pos hip).symm.trans h

/-- The walk finds the client if it is the rightmost hop that is not a trusted proxy. -/
theorem firstUntrusted_eq_some_iff {proxies : List IpAddr} {client : IpAddr}
    (hclient : client ∉ proxies) (hops : List Str) :
    firstUntrusted IpAddr.fromStr proxies hops = some client ↔ Reports proxies client hops := by
  constructor
  · intro h
    induction hops with
    | nil => cases h
    | cons element rest ih =>
      by_cases hpassed : PassedOver proxies element
      · rw [firstUntrusted_cons_of_passedOver hpassed] at h
        obtain ⟨passed, element', rest', rfl, hall, hfrom⟩ := ih h
        exact ⟨element :: passed, element', rest', rfl, List.forall_mem_cons.2 ⟨hpassed, hall⟩,
          hfrom⟩
      · exact ⟨[], element, rest, rfl, by simp, fromStr_of_firstUntrusted_cons hpassed h⟩
  · rintro ⟨passed, element, rest, rfl, hall, hfrom⟩
    induction passed with
    | nil => exact firstUntrusted_cons_of_fromStr hfrom hclient rest
    | cons e passed ih =>
      obtain ⟨hpassed, hall⟩ := List.forall_mem_cons.1 hall
      rw [List.cons_append, firstUntrusted_cons_of_passedOver hpassed]
      exact ih hall

/-! ### Identification -/

/-- The elements of a line, rightmost first. -/
def hops (text : Str) : List Str :=
  (text.splitOn ',').reverse

/-- A line that ends in a record reports the client, whatever is in front of it. -/
theorem reports_of_names {proxies : List IpAddr} {client : IpAddr} {recorded : HeaderValue}
    {element : Str} (h : Names recorded client element) (text : Str) :
    Reports proxies client (hops (text ++ ',' :: element)) := by
  refine ⟨[], element, (text.splitOn ',').reverse, ?_, by simp, h.fromStr⟩
  rw [hops, List.splitOn_append_cons_self, List.splitOn_eq_singleton h.comma, List.reverse_append]
  rfl

theorem reports_of_names_singleton {proxies : List IpAddr} {client : IpAddr}
    {recorded : HeaderValue} {element : Str} (h : Names recorded client element) :
    Reports proxies client (hops element) := by
  refine ⟨[], element, [], ?_, by simp, h.fromStr⟩
  rw [hops, List.splitOn_eq_singleton h.comma]
  rfl

/-- A line with a record at its end is read as text if it was text before. -/
theorem toStr_append {last line recorded : HeaderValue} {element : Str}
    (hbytes : line.bytes = last.bytes ++ Text.utf8 [','] ++ recorded.bytes)
    (h : recorded.toStr = some element) :
    line.toStr = last.toStr.map (· ++ ',' :: element) := by
  have hcomma : (Text.utf8 [',']).all isVisibleAscii := by decide
  rw [HeaderValue.toStr] at h
  obtain ⟨hvisible, helement⟩ := Option.ite_none_right_eq_some.1 h
  rw [← Option.some.inj helement]
  simp only [HeaderValue.toStr, hbytes, List.all_append, hcomma, hvisible, Bool.and_true]
  split_ifs
  · simp only [Option.map_some, List.map_append, List.append_assoc]
    rfl
  · rfl

/-- The rightmost untrusted hop of the first line is the client. -/
theorem extractIp_eq_toText_iff {req : Request H E B} {addr : SocketAddr}
    (haddr : Extensions.Slot.get req.extensions = some addr) {proxies : List IpAddr}
    (hpeer : addr.ip ∈ proxies) {client : IpAddr} (hclient : client ∉ proxies) :
    extractIp IpAddr.fromStr req (.trusted proxies) = client.toText ↔
      ∃ first text, (Multimap.getAll req.headers HeaderName.xForwardedFor).head? = some first ∧
        first.toStr = some text ∧ Reports proxies client (hops text) := by
  have hne : addr.ip ≠ client := fun h ↦ hclient (h ▸ hpeer)
  have hgetD : ∀ hop : Option IpAddr, hop.getD addr.ip = client ↔ hop = some client := by
    intro hop
    cases hop with
    | none => exact iff_of_false hne (by simp)
    | some ip => exact Option.some_inj.symm
  rw [extractIp, haddr]
  dsimp only
  rw [if_neg (not_not_intro hpeer), IpAddr.toText_injective.eq_iff, hgetD, headerText,
    Option.bind_eq_some_iff]
  constructor
  · rintro ⟨text, htext, hwalk⟩
    obtain ⟨first, hfirst, htoStr⟩ := Option.bind_eq_some_iff.1 htext
    exact ⟨first, text, hfirst, htoStr, (firstUntrusted_eq_some_iff hclient _).1 hwalk⟩
  · rintro ⟨first, text, hfirst, htoStr, hreports⟩
    exact ⟨text, Option.bind_eq_some_iff.2 ⟨first, hfirst, htoStr⟩,
      (firstUntrusted_eq_some_iff hclient _).2 hreports⟩

/-- A peer that is not trusted is charged itself, whatever the headers. -/
theorem extractIp_of_not_mem {req : Request H E B} {addr : SocketAddr}
    (haddr : Extensions.Slot.get req.extensions = some addr) {trust : ProxyTrust}
    (hpeer : addr.ip ∉ trust.proxies) :
    extractIp IpAddr.fromStr req trust = addr.ip.toText := by
  rw [extractIp, haddr]
  cases trust with
  | never => rfl
  | trusted proxies => exact if_pos hpeer

/-- The only line of a request, if it can be read, reports the client. -/
theorem reports_of_records {proxies : List IpAddr} {client : IpAddr} {recorded : HeaderValue}
    {element : Str} (hnames : Names recorded client element) {lines : List HeaderValue}
    {line : HeaderValue} (hrecords : Records recorded lines [line]) (hread : line.toStr.isSome) :
    ∃ text, line.toStr = some text ∧ Reports proxies client (hops text) := by
  generalize hreceived : [line] = received at hrecords
  have hconcat : [] ++ [line] = received := hreceived
  cases hrecords with
  | newLine =>
    obtain ⟨-, hline⟩ := List.append_inj' hconcat rfl
    rw [List.head_eq_of_cons_eq hline]
    exact ⟨element, hnames.toStr, reports_of_names_singleton hnames⟩
  | append lines last line' hbytes =>
    obtain ⟨-, hline⟩ := List.append_inj' hconcat rfl
    rw [List.head_eq_of_cons_eq hline, toStr_append hbytes hnames.toStr] at hread ⊢
    obtain ⟨text, htext⟩ := Option.isSome_iff_exists.1 (Option.isSome_map ▸ hread)
    exact ⟨text ++ ',' :: element, by rw [htext]; rfl, reports_of_names hnames text⟩

/-- **When the client is identified**: the peer is not a trusted proxy, and is charged itself; or
the request arrives with one line, which can be read; or the first line happens to report the
client. -/
theorem extractIp_eq_identity_iff {req : Request H E B} {addr : SocketAddr}
    (haddr : Extensions.Slot.get req.extensions = some addr) {trust : ProxyTrust}
    {client : IpAddr} (hclient : client ∉ trust.proxies) {recorded : HeaderValue} {element : Str}
    (hnames : Names recorded client element) {lines : List HeaderValue}
    (hrecords : Records recorded lines
      (Multimap.getAll req.headers HeaderName.xForwardedFor)) :
    extractIp IpAddr.fromStr req trust = (identity trust addr client).toText ↔
      addr.ip ∉ trust.proxies ∨
        (∃ line, Multimap.getAll req.headers HeaderName.xForwardedFor = [line] ∧
          line.toStr.isSome) ∨
        ∃ first text,
          (Multimap.getAll req.headers HeaderName.xForwardedFor).head? = some first ∧
            first.toStr = some text ∧ Reports trust.proxies client (hops text) := by
  by_cases hpeer : addr.ip ∈ trust.proxies
  · cases trust with
    | never => cases hpeer
    | trusted proxies =>
      have hmem : addr.ip ∈ proxies := hpeer
      rw [identity, if_pos hpeer, extractIp_eq_toText_iff haddr hmem hclient]
      refine ⟨fun h ↦ .inr (.inr h), ?_⟩
      rintro (h | ⟨line, hline, hread⟩ | h)
      · exact absurd hpeer h
      · rw [hline] at hrecords ⊢
        obtain ⟨text, htext, hreports⟩ := reports_of_records hnames hrecords hread
        exact ⟨line, text, rfl, htext, hreports⟩
      · exact h
  · rw [identity, if_neg hpeer]
    exact iff_of_true (extractIp_of_not_mem haddr hpeer) (.inl hpeer)

/-- A request that the proxy `10.0.0.1` has passed on. -/
def proxied (lines : List HeaderValue) :
    Request (AssocList HeaderName HeaderValue) (Option SocketAddr) Unit where
  inner := ⟨.get, { path := "/".toList },
    lines.foldl (fun headers line ↦ Multimap.append headers HeaderName.xForwardedFor line)
      Multimap.empty, none, (), .http11⟩
  extensions := some ⟨.v4 10 0 0 1, 443⟩

/-- A client without a line of its own is identified. -/
theorem proxied_extractIp_eq_identity :
    extractIp IpAddr.fromStr (proxied [HeaderValue.fromStatic "203.0.113.7"])
        (.trusted [.v4 10 0 0 1]) =
      (identity (.trusted [.v4 10 0 0 1]) ⟨.v4 10 0 0 1, 443⟩ (.v4 203 0 113 7)).toText :=
  (extractIp_eq_identity_iff rfl (by decide)
    ⟨rfl, by decide, by decide⟩ (.newLine [])).2 (.inr (.inl ⟨_, rfl, by decide⟩))

/-- A client that sends a line is taken for the address on it, if the proxy records on a line of
its own. -/
theorem proxied_extractIp_ne_identity :
    Names (HeaderValue.fromStatic "203.0.113.7") (.v4 203 0 113 7) "203.0.113.7".toList ∧
      Records (HeaderValue.fromStatic "203.0.113.7") [HeaderValue.fromStatic "198.51.100.9"]
        (Multimap.getAll (proxied [HeaderValue.fromStatic "198.51.100.9",
          HeaderValue.fromStatic "203.0.113.7"]).headers HeaderName.xForwardedFor) ∧
      extractIp IpAddr.fromStr (proxied [HeaderValue.fromStatic "198.51.100.9",
          HeaderValue.fromStatic "203.0.113.7"]) (.trusted [.v4 10 0 0 1]) ≠
        (identity (.trusted [.v4 10 0 0 1]) ⟨.v4 10 0 0 1, 443⟩ (.v4 203 0 113 7)).toText :=
  ⟨⟨rfl, by decide, by decide⟩, .newLine [_], by decide⟩

end RateLimit
