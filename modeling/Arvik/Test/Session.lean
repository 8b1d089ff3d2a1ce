import Arvik.Extract.CookieRoundTrip

/-!
# The cookies of a test client

The test client keeps a jar across its requests. It reads the `Set-Cookie` lines of each response,
of which one that has expired removes its cookie, and sends the cookies it has in the `Cookie` line
of each request. The server reads that line with the jar of the framework.

## What the lines say

Which lines delete their cookie is said without the client's loop over the attributes (`Deletes`):
the first attribute spelled `Max-Age=` or `max-age=` decides, whatever its value, and only where
there is none the first one spelled `Expires=` or `expires=`. Other spellings do not count, though
browsers take them.

A session is any list of responses. What it says of a name is a fold over its lines
(`lastChange`), and an induction over the responses shows that the client holds just that, one
cookie for each name that has a value, whatever order the lines came in (`holds_after`).

## What the server reads

The server is sent the cookies of the client as they stand, and reads them percent-decoded; so a
handler finds for every name what was set last exactly if nothing that is held has an escape
(`TestClient.reads_iff`). The request is one whose builder has no cookies of its own. One direction
is not obvious: a name that decoding changes could be made up for by another one that decodes to it.
That is excluded by counting, for decoding makes texts shorter (`forall_lastValue_iff`).
-/

/-! ### The cookie library -/

/-- The name and the value of a `Set-Cookie` line, as they stand there. -/
def plainPair (line : Str) : Option (Str × Str) :=
  (Text.splitOnce '=' (line.takeWhile (· ≠ ';'))).bind fun p ↦
    if Text.trim p.1 = [] then none else some (Text.trim p.1, Text.trim p.2)

/-- A cookie type that can be read from `Set-Cookie` lines. -/
class SetCookieParser (C : Type) extends CookieLib C where
  parse : Str → Option C
  parse_eq : ∀ s, (parse s).map (fun c ↦ (name c, value c)) = plainPair s

/-- A jar type whose cookies can be listed, in no particular order. -/
class JarIter (J : Type) (C : outParam Type) [CookieLib C] [JarLib J C] where
  iter : J → List C
  iter_new : iter JarLib.new = []
  iter_add : ∀ j c, (iter (JarLib.add j c)).Perm
    (c :: (iter j).filter fun d ↦ CookieLib.name d ≠ CookieLib.name c)
  iter_remove : ∀ j c, (iter (JarLib.remove j c)).Perm
    ((iter j).filter fun d ↦ CookieLib.name d ≠ CookieLib.name c)

/-! ### The client -/

/-- A number of 64 bits in decimal, with an optional sign. -/
def parseI64 : Str → Option ℤ
  | '-' :: digits =>
    if digits ≠ [] ∧ digits.all Char.isDigit ∧ Nat.ofDigitChars 10 digits 0 ≤ 2 ^ 63 then
      some (-Nat.ofDigitChars 10 digits 0)
    else none
  | s => (Text.parseUnsigned 63 s).map Int.ofNat

/-- The value of an attribute that begins with one of two texts. -/
def attributeValue (upper lower text : Str) : Option Str :=
  (Text.stripPrefix upper text).or (Text.stripPrefix lower text)

/-- A `Set-Cookie` line deletes its cookie: by its maximal age, or else by its expiry date, which
another library reads. -/
def setCookieIsExpired (parseHttpDate : Str → Option ℕ) (now : ℕ) (raw : Str) : Bool :=
  let attributes := ((raw.splitOn ';').drop 1).map Text.trim
  match attributes.findSome? (attributeValue "Max-Age=".toList "max-age=".toList) with
  | some v => (parseI64 (Text.trim v)).any (· ≤ 0)
  | none =>
    match attributes.findSome? (attributeValue "Expires=".toList "expires=".toList) with
    | some v => (parseHttpDate (Text.trim v)).any (· ≤ now)
    | none => false

example : setCookieIsExpired (fun _ ↦ none) 0 "sid=1; Path=/; max-age=-1".toList = true := by decide

/-- The test client; its service answers the requests. -/
structure TestClient (J : Type) where
  cookies : J

/-- What the client does with a response, at a time. -/
structure Answer (H : Type) where
  now : ℕ
  headers : H

/-- A request that is built for a test: its headers, and the cookies it has for itself. -/
structure TestRequestBuilder (H C : Type) where
  headers : H
  extraCookies : List C

variable {H E C J : Type} [Multimap H HeaderName HeaderValue] [SetCookieParser C] [JarLib J C]

namespace TestClient

/-- A client without cookies. -/
def fromService : TestClient J :=
  ⟨JarLib.new⟩

/-- The `Cookie` line of all cookies; it can be empty or no header value. -/
def cookieHeader [JarIter J C] (self : TestClient J) : Option HeaderValue :=
  let header := "; ".toList.intercalate
    ((JarIter.iter self.cookies).map fun cookie : C ↦
      CookieLib.name cookie ++ '=' :: CookieLib.value cookie)
  if header = [] then none else HeaderValue.fromStr header

/-- Store the cookie of one line. -/
def storeCookie (parseHttpDate : Str → Option ℕ) (now : ℕ) (jar : J) (value : HeaderValue) : J :=
  match value.toStr with
  | none => jar
  | some value =>
    match (SetCookieParser.parse value : Option C) with
    | none => jar
    | some cookie =>
      if setCookieIsExpired parseHttpDate now value then JarLib.remove jar cookie
      else JarLib.add jar cookie

/-- Store the cookies of a response. -/
def storeResponseCookies (parseHttpDate : Str → Option ℕ) (self : TestClient J)
    (answer : Answer H) : TestClient J where
  cookies := (Multimap.getAll answer.headers HeaderName.setCookie).foldl
    (storeCookie parseHttpDate answer.now) self.cookies

/-- The client after some responses. -/
def after (parseHttpDate : Str → Option ℕ) (self : TestClient J) (answers : List (Answer H)) :
    TestClient J :=
  answers.foldl (storeResponseCookies parseHttpDate) self

end TestClient

namespace TestRequestBuilder

/-- Add a header. -/
def header (self : TestRequestBuilder H C) (key : HeaderName) (value : HeaderValue) :
    TestRequestBuilder H C :=
  { self with headers := Multimap.insert self.headers key value }

/-- Add a cookie of this request only. -/
def cookie (self : TestRequestBuilder H C) (cookie : C) : TestRequestBuilder H C :=
  { self with extraCookies := self.extraCookies ++ [cookie] }

/-- The headers with the cookies of the client behind those of the builder. -/
def withJar (headers : H) (jarHeader : Option Str) : H :=
  match jarHeader with
  | some jarHeader =>
    let merged := match (Multimap.get headers HeaderName.cookie).bind HeaderValue.toStr with
      | some existing => existing ++ "; ".toList ++ jarHeader
      | none => jarHeader
    match HeaderValue.fromStr merged with
    | some value => Multimap.insert headers HeaderName.cookie value
    | none => headers
  | none => headers

/-- A cookie behind a line of others. -/
def pushCookie (line : Str) (cookie : C) : Str :=
  (if line = [] then line else line ++ "; ".toList) ++
    (CookieLib.name cookie ++ '=' :: CookieLib.value cookie)

/-- The headers of the request that is sent, of which each name keeps one line. Cookies of the
request that make no header value are an error of the test, which ends there. -/
def send [JarIter J C] (self : TestRequestBuilder H C) (client : TestClient J) : Option H :=
  let headers := withJar self.headers (client.cookieHeader.bind HeaderValue.toStr)
  let headers := if self.extraCookies = [] then some headers else
    let existing :=
      ((Multimap.get headers HeaderName.cookie).bind HeaderValue.toStr).getD []
    (HeaderValue.fromStr (self.extraCookies.foldl pushCookie existing)).map fun value ↦
      Multimap.insert headers HeaderName.cookie value
  headers.map fun headers ↦ (Multimap.intoIter headers).foldl appendNamed Multimap.empty

end TestRequestBuilder

/-! ### What a client holds -/

open CookieRoundTrip

/-- The first attribute that is spelled in one of two ways has a value. -/
def FirstSpelled (upper lower : Str) (attributes : List Str) (value : Str) : Prop :=
  ∃ before found after, attributes = before ++ found :: after ∧
    (found = upper ++ value ∨ found = lower ++ value) ∧
    ∀ other ∈ before, ¬upper <+: other ∧ ¬lower <+: other

/-- A `Set-Cookie` line deletes its cookie: its maximal age, if an attribute is spelled so, is a
number that is not positive, and otherwise its expiry date, if an attribute is spelled so, is a date
that has come. -/
def Deletes (parseHttpDate : Str → Option ℕ) (now : ℕ) (raw : Str) : Prop :=
  let attributes := ((raw.splitOn ';').drop 1).map Text.trim
  let maxAge := FirstSpelled "Max-Age=".toList "max-age=".toList attributes
  let expires := FirstSpelled "Expires=".toList "expires=".toList attributes
  (∃ value secs, maxAge value ∧ parseI64 (Text.trim value) = some secs ∧ secs ≤ 0) ∨
    (∀ value, ¬maxAge value) ∧
      ∃ value time, expires value ∧ parseHttpDate (Text.trim value) = some time ∧ time ≤ now

theorem attributeValue_eq_some_iff {upper lower text value : Str}
    (hlength : upper.length = lower.length) (hne : upper ≠ lower) :
    attributeValue upper lower text = some value ↔
      text = upper ++ value ∨ text = lower ++ value := by
  rw [attributeValue, Option.or_eq_some_iff, Text.stripPrefix_eq_some_iff,
    Text.stripPrefix_eq_some_iff]
  refine or_congr_right (and_iff_right_of_imp ?_)
  rintro rfl
  refine Option.eq_none_iff_forall_ne_some.2 fun rest hrest ↦ hne ?_
  exact (List.append_inj_left (Text.stripPrefix_eq_some_iff.1 hrest) hlength.symm).symm

theorem attributeValue_eq_none_iff {upper lower text : Str} :
    attributeValue upper lower text = none ↔ ¬upper <+: text ∧ ¬lower <+: text := by
  have hprefix : ∀ p : Str, Text.stripPrefix p text = none ↔ ¬p <+: text := by
    intro p
    rw [Option.eq_none_iff_forall_ne_some]
    exact ⟨fun h ⟨rest, hrest⟩ ↦ h rest (Text.stripPrefix_eq_some_iff.2 hrest.symm),
      fun h rest hrest ↦ h ⟨rest, (Text.stripPrefix_eq_some_iff.1 hrest).symm⟩⟩
  rw [attributeValue, Option.or_eq_none_iff, hprefix, hprefix]

theorem findSome?_attributeValue_iff {upper lower value : Str} {attributes : List Str}
    (hlength : upper.length = lower.length) (hne : upper ≠ lower) :
    attributes.findSome? (attributeValue upper lower) = some value ↔
      FirstSpelled upper lower attributes value := by
  rw [List.findSome?_eq_some_iff, FirstSpelled]
  simp only [attributeValue_eq_some_iff hlength hne, attributeValue_eq_none_iff]

/-- The client finds out which lines delete their cookies. -/
theorem setCookieIsExpired_iff {parseHttpDate : Str → Option ℕ} {now : ℕ} {raw : Str} :
    setCookieIsExpired parseHttpDate now raw = true ↔ Deletes parseHttpDate now raw := by
  have hmaxAge : "Max-Age=".toList.length = "max-age=".toList.length := by decide
  have hexpires : "Expires=".toList.length = "expires=".toList.length := by decide
  simp only [setCookieIsExpired, Deletes, ← findSome?_attributeValue_iff hmaxAge (by decide),
    ← findSome?_attributeValue_iff hexpires (by decide)]
  generalize ((raw.splitOn ';').drop 1).map Text.trim = attributes
  rcases attributes.findSome? (attributeValue "Max-Age=".toList "max-age=".toList) with - | value
  · rcases attributes.findSome? (attributeValue "Expires=".toList "expires=".toList) with
      - | value
    · simp
    · simp [Option.any_eq_true]
  · simp [Option.any_eq_true]

instance (parseHttpDate : Str → Option ℕ) (now : ℕ) (raw : Str) :
    Decidable (Deletes parseHttpDate now raw) :=
  decidable_of_iff _ setCookieIsExpired_iff

/-- What a line says of a name: its value, or that it is deleted. -/
def change (parseHttpDate : Str → Option ℕ) (now : ℕ) (value : HeaderValue) :
    Option (Str × Option Str) :=
  value.toStr.bind fun raw ↦ (plainPair raw).map fun p ↦
    (p.1, if Deletes parseHttpDate now raw then none else some p.2)

/-- What the lines of a response say. -/
def Answer.changes (parseHttpDate : Str → Option ℕ) (self : Answer H) :
    List (Str × Option Str) :=
  (Multimap.getAll self.headers HeaderName.setCookie).filterMap (change parseHttpDate self.now)

/-- The value that a name has last, unless it was deleted since. -/
def lastChange (n : Str) (changes : List (Str × Option Str)) : Option Str :=
  changes.foldl (fun held c ↦ if c.1 = n then c.2 else held) none

theorem lastChange_concat (n : Str) (changes : List (Str × Option Str)) (c : Str × Option Str) :
    lastChange n (changes ++ [c]) = if c.1 = n then c.2 else lastChange n changes :=
  List.foldl_concat _ _ _ _

/-- What a name has last was said of it. -/
theorem mem_of_lastChange {n v : Str} {changes : List (Str × Option Str)}
    (h : lastChange n changes = some v) : (n, some v) ∈ changes := by
  induction changes using List.reverseRecOn with
  | nil => cases h
  | append_singleton changes c ih =>
    rw [lastChange_concat] at h
    split at h
    · next hn => exact List.mem_append_right _ (List.mem_singleton.2 (Prod.ext hn.symm h.symm))
    · exact List.mem_append_left _ (ih h)

/-- One cookie for each name that has a value, and it has that value. -/
structure Holds (cookies : List C) (changes : List (Str × Option Str)) : Prop where
  nodup : (cookies.map CookieLib.name).Nodup
  mem_iff : ∀ n v, (n, v) ∈ cookies.map pair ↔ lastChange n changes = some v

theorem Holds.perm {cookies cookies' : List C} {changes : List (Str × Option Str)}
    (h : Holds cookies changes) (hperm : cookies'.Perm cookies) : Holds cookies' changes where
  nodup := (hperm.map _).nodup_iff.2 h.nodup
  mem_iff n v := (hperm.map _).mem_iff.trans (h.mem_iff n v)

/-- The cookies of the other names. -/
theorem Holds.mem_filter_iff {cookies : List C} {changes : List (Str × Option Str)}
    (h : Holds cookies changes) (k n v : Str) :
    (n, v) ∈ (cookies.filter fun d ↦ CookieLib.name d ≠ k).map pair ↔
      n ≠ k ∧ lastChange n changes = some v := by
  rw [← h.mem_iff, List.mem_map, List.mem_map]
  constructor
  · rintro ⟨d, hd, hdn⟩
    obtain ⟨hd, hk⟩ := List.mem_filter.1 hd
    rw [pair, Prod.mk.injEq] at hdn
    exact ⟨hdn.1 ▸ of_decide_eq_true hk, d, hd, Prod.ext hdn.1 hdn.2⟩
  · rintro ⟨hk, d, hd, hdn⟩
    refine ⟨d, List.mem_filter.2 ⟨hd, decide_eq_true fun hdk ↦ hk ?_⟩, hdn⟩
    rw [← hdk]
    exact (congrArg Prod.fst hdn).symm

theorem Holds.nodup_filter {cookies : List C} {changes : List (Str × Option Str)}
    (h : Holds cookies changes) (k : Str) :
    ((cookies.filter fun d ↦ CookieLib.name d ≠ k).map CookieLib.name).Nodup :=
  h.nodup.sublist (List.filter_sublist.map _)

/-- A cookie that is added takes the place of the one of its name. -/
theorem Holds.add {cookies : List C} {changes : List (Str × Option Str)} (h : Holds cookies changes)
    (c : C) :
    Holds (c :: cookies.filter fun d ↦ CookieLib.name d ≠ CookieLib.name c)
      (changes ++ [(CookieLib.name c, some (CookieLib.value c))]) where
  nodup := by
    refine List.nodup_cons.2 ⟨fun hmem ↦ ?_, h.nodup_filter _⟩
    obtain ⟨d, hd, hdc⟩ := List.mem_map.1 hmem
    exact of_decide_eq_true (List.mem_filter.1 hd).2 hdc
  mem_iff n v := by
    rw [lastChange_concat, List.map_cons, List.mem_cons, h.mem_filter_iff, pair, Prod.mk.injEq]
    show _ ↔ (if CookieLib.name c = n then some (CookieLib.value c) else _) = _
    split
    · next hn =>
      rw [and_iff_right hn.symm, or_iff_left fun h ↦ h.1 hn.symm, Option.some_inj, eq_comm]
    · next hn => rw [or_iff_right fun h ↦ hn h.1.symm, and_iff_right (Ne.symm hn)]

/-- A cookie that is removed is gone. -/
theorem Holds.remove {cookies : List C} {changes : List (Str × Option Str)}
    (h : Holds cookies changes) (c : C) :
    Holds (cookies.filter fun d ↦ CookieLib.name d ≠ CookieLib.name c)
      (changes ++ [(CookieLib.name c, none)]) where
  nodup := h.nodup_filter _
  mem_iff n v := by
    rw [lastChange_concat, h.mem_filter_iff]
    show _ ↔ (if CookieLib.name c = n then none else _) = _
    split
    · next hn => exact iff_of_false (fun h ↦ h.1 hn.symm) (Option.some_ne_none v).symm
    · next hn => rw [and_iff_right (Ne.symm hn)]

section Session

variable [JarIter J C] (parseHttpDate : Str → Option ℕ)

/-- One line. -/
theorem holds_storeCookie {jar : J} {changes : List (Str × Option Str)}
    (h : Holds (JarIter.iter jar) changes) (now : ℕ) (value : HeaderValue) :
    Holds (JarIter.iter (TestClient.storeCookie parseHttpDate now jar value))
      (changes ++ (change parseHttpDate now value).toList) := by
  rw [TestClient.storeCookie, change]
  simp only [← setCookieIsExpired_iff]
  rcases value.toStr with - | raw
  · rwa [Option.bind_none, Option.toList_none, List.append_nil]
  · have hparse := SetCookieParser.parse_eq (C := C) raw
    rw [Option.bind_some, ← hparse]
    show Holds (JarIter.iter (match (SetCookieParser.parse raw : Option C) with
      | none => jar | some cookie => _)) _
    rcases (SetCookieParser.parse raw : Option C) with - | c
    · rwa [Option.map_none, Option.map_none, Option.toList_none, List.append_nil]
    · rw [Option.map_some, Option.map_some, Option.toList_some]
      show Holds (JarIter.iter (if _ then _ else _))
        (changes ++ [(CookieLib.name c, if _ then _ else _)])
      split
      · exact (h.remove c).perm (JarIter.iter_remove jar c)
      · exact (h.add c).perm (JarIter.iter_add jar c)

/-- The lines of a response. -/
theorem holds_foldl_storeCookie {jar : J} {changes : List (Str × Option Str)}
    (h : Holds (JarIter.iter jar) changes) (now : ℕ) (values : List HeaderValue) :
    Holds (JarIter.iter (values.foldl (TestClient.storeCookie parseHttpDate now) jar))
      (changes ++ values.filterMap (change parseHttpDate now)) := by
  induction values generalizing jar changes with
  | nil => rwa [List.filterMap_nil, List.append_nil]
  | cons value values ih =>
    have hstored := ih (holds_storeCookie parseHttpDate h now value)
    rw [List.append_assoc] at hstored
    rw [List.foldl_cons, List.filterMap_cons]
    rcases hchange : change parseHttpDate now value with - | c
    · rwa [hchange] at hstored
    · rwa [hchange] at hstored

/-- **What a client holds after a session** is, for each name, what was set last. Each response
changes the jar line by line, and a line speaks of one name only. -/
theorem holds_after (answers : List (Answer H)) :
    Holds
      (JarIter.iter ((TestClient.fromService : TestClient J).after parseHttpDate answers).cookies)
      (answers.flatMap (Answer.changes parseHttpDate)) := by
  induction answers using List.reverseRecOn with
  | nil =>
    rw [TestClient.after, TestClient.fromService, List.foldl_nil, JarIter.iter_new]
    exact ⟨List.nodup_nil, fun n v ↦ iff_of_false List.not_mem_nil (Option.some_ne_none v).symm⟩
  | append_singleton answers answer ih =>
    rw [TestClient.after, List.foldl_concat, List.flatMap_append, List.flatMap_singleton]
    exact holds_foldl_storeCookie parseHttpDate ih answer.now _

/-! ### What the server is sent -/

/-- A pair that can be sent as `name=value` and be read back. -/
structure Presentable (p : Str × Str) : Prop where
  name_ne_nil : p.1 ≠ []
  trim_name : Text.trim p.1 = p.1
  trim_value : Text.trim p.2 = p.2
  equals_not_mem : '=' ∉ p.1
  semicolon_not_mem : ';' ∉ p.1 ++ p.2
  visible : ∀ c ∈ p.1 ++ p.2, c.toNat = 9 ∨ 32 ≤ c.toNat ∧ c.toNat < 127

/-- The text of a pair. -/
def textOf (p : Str × Str) : Str :=
  p.1 ++ '=' :: p.2

/-- What a line names can be sent. -/
theorem presentable_of_plainPair {value : HeaderValue} {raw : Str} {p : Str × Str}
    (hraw : value.toStr = some raw) (h : plainPair raw = some p) : Presentable p := by
  obtain ⟨⟨name, text⟩, hsplit, h⟩ := Option.bind_eq_some_iff.1 h
  obtain ⟨hname, h⟩ := Option.ite_none_left_eq_some.1 h
  obtain rfl := Option.some.inj h
  obtain ⟨hpiece, hequals⟩ := Text.splitOnce_eq_some_iff.1 hsplit
  have hmem : ∀ c ∈ Text.trim name ++ Text.trim text, c ∈ raw.takeWhile (· ≠ ';') := by
    intro c hc
    rw [hpiece]
    rcases List.mem_append.1 hc with hc | hc
    · exact List.mem_append_left _ ((Text.trim_sublist name).subset hc)
    · exact List.mem_append_right _ (List.mem_cons_of_mem _ ((Text.trim_sublist text).subset hc))
  exact
    { name_ne_nil := hname
      trim_name := Text.trim_trim name
      trim_value := Text.trim_trim text
      equals_not_mem := fun hc ↦ hequals ((Text.trim_sublist name).subset hc)
      semicolon_not_mem := fun hc ↦ by simpa using List.mem_takeWhile_imp (hmem _ hc)
      visible := fun c hc ↦ (HeaderValue.toStr_eq_some_iff.1 hraw).2 c
        ((List.takeWhile_sublist _).subset (hmem c hc)) }

namespace Presentable

variable {p : Str × Str}

theorem semicolon_not_mem_textOf (h : Presentable p) : ';' ∉ textOf p := by
  obtain ⟨hname, hvalue⟩ := List.mem_append.not.1 h.semicolon_not_mem |> not_or.1
  exact List.not_mem_append hname (List.not_mem_cons_of_ne_of_not_mem (by decide) hvalue)

theorem visible_textOf (h : Presentable p) :
    ∀ c ∈ textOf p, c.toNat = 9 ∨ 32 ≤ c.toNat ∧ c.toNat < 127 := by
  intro c hc
  rcases List.mem_append.1 hc with hc | hc
  · exact h.visible c (List.mem_append_left _ hc)
  · rcases List.mem_cons.1 hc with rfl | hc
    · exact .inr (by decide)
    · exact h.visible c (List.mem_append_right _ hc)

/-- The text neither begins nor ends with white space. -/
theorem trim_textOf (h : Presentable p) : Text.trim (textOf p) = textOf p := by
  refine Text.trim_eq_self (fun c hc ↦ ?_) fun c hc ↦ ?_
  · rw [textOf, List.head?_append_of_ne_nil _ h.name_ne_nil] at hc
    exact Text.isWhitespace_of_head?_trim (h.trim_name.symm ▸ hc)
  · rw [textOf, List.getLast?_append_cons, List.getLast?_cons] at hc
    rcases hlast : p.2.getLast? with - | d
    · rw [hlast] at hc
      obtain rfl := Option.some.inj hc
      decide
    · rw [hlast] at hc
      obtain rfl := Option.some.inj hc
      exact Text.isWhitespace_of_getLast?_trim (h.trim_value.symm ▸ hlast)

/-- The text is read by decoding its name and its value. -/
theorem parsePair_textOf (h : Presentable p) : parsePair (textOf p) = decodePair p := by
  rw [parsePair, textOf, Text.splitOnce_append _ h.equals_not_mem, Option.bind_some]
  show (if Text.trim p.1 = [] then none else (Percent.decodeUtf8 (Text.trim p.1)).bind fun name ↦
    (Percent.decodeUtf8 (Text.trim p.2)).map fun value ↦ (name, value)) = _
  rw [h.trim_name, h.trim_value, if_neg h.name_ne_nil]
  rfl

end Presentable

/-- What is said of a name in a session can be sent. -/
theorem presentable_of_mem_changes {answers : List (Answer H)} {n v : Str}
    (h : (n, some v) ∈ answers.flatMap (Answer.changes parseHttpDate)) : Presentable (n, v) := by
  obtain ⟨answer, -, h⟩ := List.mem_flatMap.1 h
  obtain ⟨value, -, h⟩ := List.mem_filterMap.1 h
  obtain ⟨raw, hraw, h⟩ := Option.bind_eq_some_iff.1 h
  obtain ⟨p, hp, h⟩ := Option.map_eq_some_iff.1 h
  obtain ⟨hname, hvalue⟩ := Prod.mk.inj h
  obtain ⟨-, hvalue⟩ := Option.ite_none_left_eq_some.1 hvalue
  obtain rfl : p = (n, v) := Prod.ext hname (Option.some.inj hvalue)
  exact presentable_of_plainPair hraw hp

/-- A text that a header value can be read as makes a header value. -/
theorem exists_fromStr {s : Str} (h : ∀ c ∈ s, c.toNat = 9 ∨ 32 ≤ c.toNat ∧ c.toNat < 127) :
    ∃ value, HeaderValue.fromStr s = some value ∧ value.toStr = some s := by
  have hascii : ∀ c ∈ s, c.toNat < 128 := fun c hc ↦ by
    have := h c hc
    omega
  have hvalid : (Text.utf8 s).all isHeaderValueByte := by
    refine List.all_eq_true.2 fun b hb ↦ ?_
    rw [Text.utf8_of_ascii hascii] at hb
    obtain ⟨c, hc, rfl⟩ := List.mem_map.1 hb
    have hvisible : isVisibleAscii (UInt8.ofNat c.toNat) := by
      rw [HeaderValue.isVisibleAscii_iff, Text.toNat_ofNat_of_ascii (hascii c hc)]
      exact h c hc
    rw [isVisibleAscii, Bool.or_eq_true, Bool.and_eq_true] at hvisible
    rw [isHeaderValueByte, Bool.or_eq_true, Bool.and_eq_true]
    refine hvisible.imp_left fun hrange ↦ ⟨hrange.1, bne_iff_ne.2 fun heq ↦ ?_⟩
    rw [heq] at hrange
    exact absurd hrange.2 (by decide)
  refine ⟨⟨Text.utf8 s, hvalid⟩, dif_pos hvalid, HeaderValue.toStr_eq_some_iff.2 ⟨rfl, h⟩⟩

/-- Pairs that can be sent can be sent in one line. -/
theorem exists_fromStr_lineText {pairs : List (Str × Str)} (h : ∀ p ∈ pairs, Presentable p) :
    ∃ value, HeaderValue.fromStr (lineText (pairs.map textOf)) = some value ∧
      value.toStr = some (lineText (pairs.map textOf)) := by
  refine exists_fromStr fun c hc ↦ ?_
  rcases Text.mem_intercalate hc with hsep | ⟨t, ht, hc⟩
  · have hseps : ∀ c ∈ "; ".toList, c.toNat = 9 ∨ 32 ≤ c.toNat ∧ c.toNat < 127 :=
      List.forall_iff_forall_mem.1 (by decide)
    exact hseps c hsep
  · obtain ⟨p, hp, rfl⟩ := List.mem_map.1 ht
    exact (h p hp).visible_textOf c hc

variable {client : TestClient J} {builder : TestRequestBuilder H C}

/-- The lines of some pairs: one line, or none if there is no pair. -/
def cookieLines (pairs : List (Str × Str)) : List (List Str) :=
  if pairs = [] then [] else [pairs.map textOf]

/-- The cookies of a client, all in one line. -/
theorem cookieHeader_bind_toStr
    (hclient : ∀ p ∈ (JarIter.iter client.cookies).map pair, Presentable p) :
    client.cookieHeader.bind HeaderValue.toStr =
      (cookieLines ((JarIter.iter client.cookies).map pair)).head?.map lineText := by
  rw [TestClient.cookieHeader]
  generalize JarIter.iter client.cookies = cookies at hclient
  have htexts :
      (cookies.map fun cookie : C ↦ CookieLib.name cookie ++ '=' :: CookieLib.value cookie) =
        (cookies.map pair).map textOf := by
    rw [List.map_map]
    rfl
  rw [htexts]
  generalize cookies.map pair = pairs at hclient
  show (if lineText (pairs.map textOf) = [] then none else _).bind _ = _
  rcases pairs with - | ⟨p, pairs⟩
  · rfl
  · have hne : lineText ((p :: pairs).map textOf) ≠ [] := by
      rw [List.map_cons, lineText]
      intro hnil
      rcases pairs with - | ⟨q, pairs⟩
      · rw [List.map_nil, List.intercalate_singleton, textOf] at hnil
        simp at hnil
      · rw [List.map_cons, List.intercalate_cons_cons, textOf] at hnil
        simp at hnil
    obtain ⟨value, hvalue, htext⟩ := exists_fromStr_lineText hclient
    rw [if_neg hne]
    show (HeaderValue.fromStr (lineText _)).bind _ = _
    rw [hvalue, Option.bind_some, htext]
    rfl

/-- A request without cookies of its own has the line of the client's cookies and no other. -/
theorem exists_send (hplain : Multimap.getAll builder.headers HeaderName.cookie = [] ∧
      builder.extraCookies = [])
    (hclient : ∀ p ∈ (JarIter.iter client.cookies).map pair, Presentable p) :
    ∃ headers, builder.send client = some headers ∧
      (Multimap.getAll headers HeaderName.cookie).map HeaderValue.toStr =
        (cookieLines ((JarIter.iter client.cookies).map pair)).map fun ts ↦ some (lineText ts) := by
  have hheader := cookieHeader_bind_toStr hclient
  rw [TestRequestBuilder.send, if_pos hplain.2]
  refine ⟨_, rfl, ?_⟩
  rw [getAll_foldl_appendNamed, Multimap.getAll_empty, List.nil_append, hheader]
  have hget : (Multimap.get builder.headers HeaderName.cookie).bind HeaderValue.toStr = none := by
    rw [Multimap.get, hplain.1]
    rfl
  rw [cookieLines]
  split
  · show ((Multimap.getAll builder.headers _).take 1).map _ = []
    rw [hplain.1]
    rfl
  · obtain ⟨value, hvalue, htext⟩ := exists_fromStr_lineText hclient
    show ((Multimap.getAll (TestRequestBuilder.withJar builder.headers (some (lineText _)))
      HeaderName.cookie).take 1).map _ = [some (lineText _)]
    rw [TestRequestBuilder.withJar, hget]
    show ((Multimap.getAll (match HeaderValue.fromStr (lineText _) with
      | some value => Multimap.insert builder.headers HeaderName.cookie value
      | none => builder.headers) HeaderName.cookie).take 1).map _ = _
    rw [hvalue]
    show ((Multimap.getAll (Multimap.insert _ _ _) _).take 1).map _ = _
    rw [Multimap.getAll_insert, if_pos rfl]
    exact congrArg (fun text ↦ [text]) htext

/-! ### What the server reads -/

variable [Extensions E] [Extensions.Slot E (CachedCookies J)]

omit [JarIter J C] in
/-- The jar of a request holds, for each name, what the last of the pairs is decoded to. -/
theorem map_value_get_fromRequestParts {parts : RequestParts H E} {pairs : List (Str × Str)}
    (hfresh : (Extensions.Slot.get parts.extensions : Option (CachedCookies J)) = none)
    (hpairs : ∀ p ∈ pairs, Presentable p)
    (hlines : (Multimap.getAll parts.headers HeaderName.cookie).map HeaderValue.toStr =
      (cookieLines pairs).map fun ts ↦ some (lineText ts)) (n : Str) :
    ((CookieJar.fromRequestParts parts : CookieJar J × _).1.get n).map CookieLib.value =
      lastValue n none (pairs.filterMap decodePair) := by
  have hflatten : (cookieLines pairs).flatten = pairs.map textOf := by
    rw [cookieLines]
    split
    · next h => rw [h]; rfl
    · exact List.append_nil _
  have hpieces : ∀ t ∈ pairs.map textOf, ';' ∉ t := by
    intro t ht
    obtain ⟨p, hp, rfl⟩ := List.mem_map.1 ht
    exact (hpairs p hp).semicolon_not_mem_textOf
  have hjar : (CookieJar.fromRequestParts parts : CookieJar J × _).1.inner =
      (pairs.map textOf).foldl addPair JarLib.new := by
    rw [CookieJar.fromRequestParts, requestCookieJar, hfresh, ← hflatten]
    refine foldl_addCookieLine _ hlines fun ts hts t ht ↦ ?_
    exact hpieces t (hflatten ▸ List.mem_flatten.2 ⟨ts, hts, ht⟩)
  have hparse : (pairs.map textOf).filterMap readPiece = pairs.filterMap decodePair := by
    rw [List.filterMap_map]
    refine List.filterMap_congr fun p hp ↦ ?_
    show parsePair (Text.trim (textOf p)) = _
    rw [(hpairs p hp).trim_textOf, (hpairs p hp).parsePair_textOf]
  rw [CookieJar.get, hjar, map_value_get_foldl_addPair JarLib.delta_new hpieces, JarLib.get_new,
    hparse]
  rfl

/-- Pairs of different names are what decoding makes of them exactly if they have no escapes. -/
theorem forall_lastValue_iff {pairs : List (Str × Str)} {held : Str → Option Str}
    (hnames : (pairs.map Prod.fst).Nodup) (hheld : ∀ n v, (n, v) ∈ pairs ↔ held n = some v) :
    (∀ n, lastValue n none (pairs.filterMap decodePair) = held n) ↔
      ∀ n v, (n, v) ∈ pairs →
        Percent.hasEscape (Text.utf8 n) = false ∧ Percent.hasEscape (Text.utf8 v) = false := by
  constructor
  · intro h
    have honto : ∀ q ∈ pairs, ∃ p ∈ pairs, decodePair p = some q := by
      intro q hq
      rcases mem_of_lastValue ((h q.1).trans ((hheld q.1 q.2).1 hq)) with hnone | hmem
      · cases hnone
      · exact List.mem_filterMap.1 hmem
    -- all pairs are hit, and decoding only shortens, so none of them moves
    have hfixed := List.forall_fixed_of_onto decodePair_size hnames.of_map (List.Subset.refl _)
      hnames.of_map honto
    intro n v hmem
    obtain ⟨hn, hv⟩ := decodePair_eq_some_iff.1 (hfixed (n, v) hmem).2
    exact ⟨Percent.decodeUtf8_eq_self_iff.1 hn, Percent.decodeUtf8_eq_self_iff.1 hv⟩
  · intro h n
    have hid : pairs.filterMap decodePair = pairs := by
      conv_rhs => rw [← List.filterMap_some (l := pairs)]
      refine List.filterMap_congr fun p hp ↦ ?_
      obtain ⟨hn, hv⟩ := h p.1 p.2 hp
      exact decodePair_eq_some_iff.2
        ⟨Percent.decodeUtf8_eq_self_iff.2 hn, Percent.decodeUtf8_eq_self_iff.2 hv⟩
    rw [hid]
    ext v
    rw [← hheld]
    constructor
    · intro hlast
      exact (mem_of_lastValue hlast).resolve_left nofun
    · exact lastValue_of_mem hnames

/-- **A handler finds for every name what was set last**, whatever the session, exactly if no name
and no value that is held then has an escape. -/
theorem TestClient.reads_iff (parseHttpDate : Str → Option ℕ) (answers : List (Answer H))
    (hplain : Multimap.getAll builder.headers HeaderName.cookie = [] ∧
      builder.extraCookies = []) {headers : H}
    (hsend : builder.send ((TestClient.fromService : TestClient J).after parseHttpDate answers) =
      some headers) {parts : RequestParts H E} (hparts : parts.headers = headers)
    (hfresh : (Extensions.Slot.get parts.extensions : Option (CachedCookies J)) = none) :
    (∀ n, ((CookieJar.fromRequestParts parts : CookieJar J × _).1.get n).map CookieLib.value =
      lastChange n (answers.flatMap (Answer.changes parseHttpDate))) ↔
      ∀ n v, lastChange n (answers.flatMap (Answer.changes parseHttpDate)) = some v →
        Percent.hasEscape (Text.utf8 n) = false ∧ Percent.hasEscape (Text.utf8 v) = false := by
  obtain ⟨hnodup, hmem⟩ := holds_after (J := J) parseHttpDate answers
  rw [← show (Prod.fst ∘ pair : C → Str) = CookieLib.name from rfl, ← List.map_map] at hnodup
  have hclient : ∀ p ∈ (JarIter.iter ((TestClient.fromService : TestClient J).after parseHttpDate
      answers).cookies).map pair, Presentable p :=
    fun p hp ↦ presentable_of_mem_changes parseHttpDate (mem_of_lastChange ((hmem p.1 p.2).1 hp))
  obtain ⟨headers', hsend', hlines⟩ := exists_send hplain hclient
  obtain rfl : headers' = headers := Option.some.inj (hsend'.symm.trans hsend)
  have hread := map_value_get_fromRequestParts hfresh hclient (hparts ▸ hlines)
  simp only [hread, ← hmem]
  exact forall_lastValue_iff hnodup hmem

end Session

/-! ### An implementation -/

instance : SetCookieParser PlainCookie where
  parse s := (plainPair s).map fun p ↦ ⟨p.1, p.2⟩
  parse_eq s := by
    rw [Option.map_map]
    exact congrFun Option.map_id _

/-- The cookies of a jar: those added, and the original ones without a change. -/
def PlainJar.iter (j : PlainJar) : List PlainCookie :=
  (j.delta.filter fun d ↦ !d.removed).map DeltaCookie.cookie ++
    j.original.filter fun c ↦ j.delta.all fun d ↦ d.cookie.name ≠ c.name

namespace PlainJar

/-- The changes of a name do not matter for a cookie of another one. -/
private theorem all_filter_ne {delta : List DeltaCookie} {n k : Str} (h : k ≠ n) :
    ((delta.filter fun d ↦ d.cookie.name ≠ n).all fun d ↦ d.cookie.name ≠ k) =
      delta.all fun d ↦ d.cookie.name ≠ k := by
  rw [List.all_filter]
  refine congrArg delta.all (funext fun d ↦ ?_)
  by_cases hd : d.cookie.name = k
  · simp [hd, h]
  · simp [hd]

private theorem map_cookie_filter_ne (delta : List DeltaCookie) (n : Str) :
    ((delta.filter fun d ↦ d.cookie.name ≠ n).filter fun d ↦ !d.removed).map DeltaCookie.cookie =
      ((delta.filter fun d ↦ !d.removed).map DeltaCookie.cookie).filter fun c ↦ c.name ≠ n := by
  rw [List.filter_map, List.filter_filter, List.filter_filter]
  exact congrArg _ (List.filter_congr fun d _ ↦ Bool.and_comm _ _)

/-- Dropping the change of a name that no original cookie has drops its cookie. -/
theorem iter_unchange {j : PlainJar} {n : Str} (h : ∀ c ∈ j.original, c.name ≠ n) :
    (j.unchange n).iter = j.iter.filter fun c ↦ c.name ≠ n := by
  have horiginal : (j.original.filter fun c ↦ (j.unchange n).delta.all fun d ↦
        d.cookie.name ≠ c.name) =
      (j.original.filter fun c ↦ j.delta.all fun d ↦ d.cookie.name ≠ c.name).filter
        fun c ↦ c.name ≠ n := by
    rw [List.filter_filter]
    refine List.filter_congr fun c hc ↦ ?_
    rw [decide_eq_true (h c hc), Bool.true_and]
    exact all_filter_ne (h c hc)
  rw [iter, iter, List.filter_append, ← map_cookie_filter_ne, ← horiginal]
  rfl

/-- A change puts its cookie, if it has one, in the place of that of its name. -/
theorem iter_change (j : PlainJar) (d : DeltaCookie) :
    (j.change d).iter =
      (if d.removed then [] else [d.cookie]) ++ j.iter.filter fun c ↦ c.name ≠ d.cookie.name := by
  have horiginal : (j.original.filter fun c ↦ (j.change d).delta.all fun d' ↦
        d'.cookie.name ≠ c.name) =
      (j.original.filter fun c ↦ j.delta.all fun d' ↦ d'.cookie.name ≠ c.name).filter
        fun c ↦ c.name ≠ d.cookie.name := by
    rw [List.filter_filter]
    refine List.filter_congr fun c _ ↦ ?_
    show (decide (d.cookie.name ≠ c.name) && List.all _ _) = _
    by_cases hc : c.name = d.cookie.name
    · simp [hc]
    · rw [all_filter_ne hc, decide_eq_true (Ne.symm hc), decide_eq_true hc]
  rw [iter, iter, List.filter_append, ← map_cookie_filter_ne, ← horiginal, ← List.append_assoc]
  refine congrArg (· ++ _) ?_
  show List.map _ ((d :: _).filter _) = _
  rcases hremoved : d.removed with - | -
  · rw [List.filter_cons_of_pos (by rw [hremoved]; rfl)]
    rfl
  · rw [List.filter_cons_of_neg (by rw [hremoved]; decide)]
    rfl

instance : JarIter PlainJar PlainCookie where
  iter := iter
  iter_new := rfl
  iter_add j c := List.Perm.of_eq (j.iter_change ⟨c, false⟩)
  iter_remove j c := by
    show (iter (if j.original.any (fun d ↦ d.name = c.name) then j.change ⟨c, true⟩
      else j.unchange c.name)).Perm _
    split
    · exact List.Perm.of_eq (j.iter_change ⟨c, true⟩)
    · next h =>
      refine List.Perm.of_eq (iter_unchange fun d hd hdc ↦ h ?_)
      exact List.any_eq_true.2 ⟨d, hd, decide_eq_true hdc⟩

end PlainJar

/-- The response to a sign-in, which also ends an earlier session. -/
def signedIn : Answer (AssocList HeaderName HeaderValue) where
  now := 0
  headers := ⟨[(.setCookie, .fromStatic "sid=31d4; Path=/; HttpOnly"),
    (.setCookie, .fromStatic "old=2; Max-Age=0")]⟩

/-- The request after it. -/
def signedInParts :
    RequestParts (AssocList HeaderName HeaderValue) (Option (CachedCookies PlainJar)) where
  method := .get
  uri := { path := "/".toList }
  headers := ⟨[(.cookie, .fromStatic "sid=31d4")]⟩
  httpExtensions := none
  extensions := none

theorem TestClient.reads_signedIn :
    ((CookieJar.fromRequestParts signedInParts : CookieJar PlainJar × _).1.get
      "sid".toList).map CookieLib.value = some "31d4".toList := by
  let builder : TestRequestBuilder (AssocList HeaderName HeaderValue) PlainCookie :=
    ⟨Multimap.empty, []⟩
  have hsend : builder.send ((fromService : TestClient PlainJar).after (fun _ ↦ none) [signedIn]) =
      some signedInParts.headers := by decide +kernel
  have hchanges : ∀ c ∈ [signedIn].flatMap (Answer.changes fun _ ↦ none),
      Percent.hasEscape (Text.utf8 c.1) = false ∧
        ∀ v ∈ c.2, Percent.hasEscape (Text.utf8 v) = false := by decide +kernel
  refine ((reads_iff (fun _ ↦ none) [signedIn] ⟨rfl, rfl⟩ hsend rfl rfl).2 (fun n v hlast ↦ ?_)
    "sid".toList).trans (by decide +kernel)
  obtain ⟨hn, hv⟩ := hchanges _ (mem_of_lastChange hlast)
  exact ⟨hn, hv v rfl⟩
