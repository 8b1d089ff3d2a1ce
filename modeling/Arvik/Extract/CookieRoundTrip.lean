import Arvik.Extract.Cookies
import Mathlib.Data.List.Nodup

/-!
# The cookie round trip

A client answers the `Set-Cookie` headers it received by replaying their `name=value` pairs in
`Cookie` lines, in any order and split over any number of lines (`IsReplay`). The jar writes pairs
verbatim and reads them percent-decoded, so the question is when what it reads is what was added.

## What can go wrong

A replay is a set of texts, and the next request knows nothing of where they came from. So it is not
enough to look at the cookies that were added: a change that was pending in the jar is sent along
with them, and its pair may decode to the name of an added cookie, or not be ASCII, so that the line
it stands in is not read at all. `Intact` says of the pairs sent and of one added cookie what has to
hold: all of them are text, one of them decodes to the cookie, and none decodes to its name with
another value. `roundTrip_iff` shows that this is exact: the client may choose the order, so the
wrong pair can always be made the last one, and the line, so the unreadable pair can always be put
beside the others.

Where nothing was pending, this comes down to the added cookies alone (`forall_intact_iff`): each of
them is sent, and has no escape in its name nor in its value. That an escape always does harm is not
obvious, since the pair of one cookie could decode to another one. But then every added pair comes
from decoding some sent pair, and decoding only ever shortens: if every pair is hit, no pair moved
(`List.forall_fixed_of_onto`).

## Reading

Reading is analysed text by text: `map_value_get_addPair` says what one piece of a line does to the
jar, and `map_value_get_foldl_addPair` that a list of pieces leaves, for every name, the value of
the last one that decodes to it. The lines themselves are taken apart by `foldl_addPair_splitOn`.
-/

namespace CookieRoundTrip

variable {H E C J : Type} [Multimap H HeaderName HeaderValue] [Extensions E] [CookieLib C]
  [JarLib J C]

/-! ### Well-formed cookies and their pairs -/

/-- The token characters: visible ASCII without separators. -/
def isTokenChar (c : Char) : Bool :=
  Text.isAsciiGraphic c && c ∉ "()<>@,;:\\\"/[]?={}".toList

/-- A cookie whose name is a token and whose value is visible ASCII without the characters cookie
values exclude, and without surrounding white space. -/
structure WellFormed (c : C) : Prop where
  name_ne_nil : CookieLib.name c ≠ []
  name_token : ∀ x ∈ CookieLib.name c, isTokenChar x
  value_visible : ∀ x ∈ CookieLib.value c,
    (32 ≤ x.toNat ∧ x.toNat < 127) ∧ x ∉ [';', ',', '"', '\'', '\\']
  value_trim : Text.trim (CookieLib.value c) = CookieLib.value c

/-- The `name=value` text of a cookie. -/
def pairText (c : C) : Str :=
  CookieLib.name c ++ '=' :: CookieLib.value c

/-- The name and the value of a cookie. -/
def pair (c : C) : Str × Str :=
  (CookieLib.name c, CookieLib.value c)

theorem visible_of_isTokenChar {x : Char} (h : isTokenChar x) : 32 ≤ x.toNat ∧ x.toNat < 127 := by
  simp only [isTokenChar, Text.isAsciiGraphic, Bool.and_eq_true, decide_eq_true_eq] at h
  omega

theorem ne_of_isTokenChar {x : Char} (h : isTokenChar x) : x ≠ '=' ∧ x ≠ ';' := by
  constructor <;> rintro rfl <;> exact absurd h (by decide)

namespace WellFormed

variable {c : C}

theorem pairText_visible (h : WellFormed c) :
    ∀ x ∈ pairText c, 32 ≤ x.toNat ∧ x.toNat < 127 := by
  intro x hx
  rcases List.mem_append.1 hx with hn | hv
  · exact visible_of_isTokenChar (h.name_token x hn)
  · rcases List.mem_cons.1 hv with rfl | hv
    · decide
    · exact (h.value_visible x hv).1

theorem semicolon_not_mem (h : WellFormed c) : ';' ∉ pairText c := by
  intro hmem
  rcases List.mem_append.1 hmem with hn | hv
  · exact (ne_of_isTokenChar (h.name_token _ hn)).2 rfl
  · rcases List.mem_cons.1 hv with heq | hv
    · exact absurd heq (by decide)
    · exact (h.value_visible _ hv).2 (by decide)

theorem trim_name (h : WellFormed c) : Text.trim (CookieLib.name c) = CookieLib.name c :=
  Text.trim_eq_self_of_forall fun x hx ↦ Text.isWhitespace_of_isAsciiGraphic (by
    have := h.name_token x hx
    simp only [isTokenChar, Bool.and_eq_true] at this
    exact this.1)

/-- The pair is parsed by decoding its two halves. -/
theorem parsePair_pairText (h : WellFormed c) :
    parsePair (pairText c) =
      (Percent.decodeUtf8 (CookieLib.name c)).bind fun n ↦
        (Percent.decodeUtf8 (CookieLib.value c)).map fun v ↦ (n, v) := by
  have hsplit : Text.splitOnce '=' (pairText c) = some (pair c) :=
    Text.splitOnce_append _ fun hmem ↦ (ne_of_isTokenChar (h.name_token _ hmem)).1 rfl
  rw [parsePair, hsplit, Option.bind_some]
  simp only [pair, h.trim_name, h.value_trim, if_neg h.name_ne_nil]

/-- The ends of the pair are not white space. -/
theorem trim_pairText (h : WellFormed c) : Text.trim (pairText c) = pairText c := by
  refine Text.trim_eq_self (fun x hx ↦ ?_) fun x hx ↦ ?_
  · obtain ⟨y, ys, hname⟩ := List.exists_cons_of_ne_nil h.name_ne_nil
    have hy : isTokenChar y := h.name_token y (hname ▸ List.mem_cons_self)
    rw [pairText, hname] at hx
    have hxy : y = x := Option.some.inj hx
    subst hxy
    simp only [isTokenChar, Bool.and_eq_true] at hy
    exact Text.isWhitespace_of_isAsciiGraphic hy.1
  · rw [pairText, List.getLast?_append, List.getLast?_cons] at hx
    have hxl : (CookieLib.value c).getLast?.getD '=' = x := by simpa using hx
    cases hv : (CookieLib.value c).getLast? with
    | none =>
      rw [hv] at hxl
      subst hxl
      decide
    | some y =>
      rw [hv] at hxl
      subst hxl
      -- A value that is its own trim does not end in white space.
      by_contra hws
      have htrim := h.value_trim
      obtain ⟨ys, hys⟩ : ∃ ys, CookieLib.value c = ys ++ [y] := List.getLast?_eq_some_iff.1 hv
      have hlen := congrArg List.length htrim
      exact absurd hlen (Text.length_trim_lt (hys ▸ hv) (Bool.not_eq_false _ ▸ hws)).ne

end WellFormed

/-! ### Reading a jar -/

/-- The value of the last pair of a name, if there is one. -/
def lastValue (n : Str) (start : Option Str) : List (Str × Str) → Option Str
  | [] => start
  | p :: pairs => lastValue n (if n = p.1 then some p.2 else start) pairs

/-- A last value is the start or occurs among the pairs. -/
theorem mem_of_lastValue {n v : Str} {start : Option Str} {pairs : List (Str × Str)}
    (h : lastValue n start pairs = some v) : start = some v ∨ (n, v) ∈ pairs := by
  induction pairs generalizing start with
  | nil => exact .inl h
  | cons p pairs ih =>
    rcases ih h with hstart | hmem
    · by_cases hn : n = p.1
      · rw [if_pos hn] at hstart
        exact .inr (List.mem_cons.2 (.inl (Prod.ext hn (Option.some.inj hstart).symm)))
      · rw [if_neg hn] at hstart
        exact .inl hstart
    · exact .inr (List.mem_cons_of_mem _ hmem)

/-- The last value of a name that has one value only. -/
theorem lastValue_eq_some {n v : Str} {start : Option Str} {pairs : List (Str × Str)}
    (h : start = some v ∨ (n, v) ∈ pairs) (hall : ∀ w, (n, w) ∈ pairs → w = v) :
    lastValue n start pairs = some v := by
  induction pairs generalizing start with
  | nil => exact h.resolve_right List.not_mem_nil
  | cons p pairs ih =>
    refine ih ?_ fun w hw ↦ hall w (List.mem_cons_of_mem _ hw)
    by_cases hn : n = p.1
    · obtain rfl : p.2 = v := hall p.2 (List.mem_cons.2 (.inl (Prod.ext hn rfl)))
      exact .inl (if_pos hn)
    · rw [if_neg hn]
      refine h.imp_right fun hmem ↦ (List.mem_cons.1 hmem).resolve_left ?_
      rintro rfl
      exact hn rfl

/-- Where no name repeats, the last value of a name is its only one. -/
theorem lastValue_of_mem {n v : Str} {start : Option Str} {pairs : List (Str × Str)}
    (hnd : (pairs.map Prod.fst).Nodup) (h : (n, v) ∈ pairs) :
    lastValue n start pairs = some v :=
  lastValue_eq_some (.inr h) fun _ hw ↦
    congrArg Prod.snd (List.inj_on_of_nodup_map hnd hw h rfl)

/-- A last piece has the last word. -/
theorem lastValue_append_singleton {n v : Str} {start : Option Str} {pairs : List (Str × Str)} :
    lastValue n start (pairs ++ [(n, v)]) = some v := by
  induction pairs generalizing start with
  | nil => exact if_pos rfl
  | cons p pairs ih => exact ih

/-- What is read of one piece of a line: white space around it does not count. -/
def readPiece (t : Str) : Option (Str × Str) :=
  parsePair (Text.trim t)

/-- What one piece of a line does to a jar nothing was added to: a piece that parses replaces the
cookie of its decoded name, any other piece is skipped. -/
theorem map_value_get_addPair {jar : J} (hjar : JarLib.delta jar = []) {t : Str} (ht : ';' ∉ t)
    (n : Str) : (JarLib.get (addPair jar t) n).map CookieLib.value =
      lastValue n ((JarLib.get jar n).map CookieLib.value) (readPiece t).toList := by
  have hparse := CookieLib.parseEncoded_eq (C := C) (Text.trim t)
    fun h ↦ ht ((Text.trim_sublist t).subset h)
  rw [addPair, readPiece]
  by_cases hnil : Text.trim t = []
  · rw [if_pos hnil, hnil]
    rfl
  · rw [if_neg hnil]
    cases hc : (CookieLib.parseEncoded (Text.trim t) : Option C) with
    | none =>
      rw [hc] at hparse
      rw [← hparse]
      rfl
    | some c =>
      rw [hc] at hparse
      rw [← hparse, JarLib.get_addOriginal _ _ _ hjar]
      show Option.map CookieLib.value (if n = CookieLib.name c then some c else _) =
        if n = CookieLib.name c then some (CookieLib.value c) else _
      split <;> rfl

theorem delta_addPair (jar : J) (t : Str) : JarLib.delta (addPair jar t) = JarLib.delta jar := by
  rw [addPair]
  split
  · rfl
  · split
    · exact JarLib.delta_addOriginal _ _
    · rfl

/-- A list of pieces leaves, for every name, the value of the last piece decoding to it. -/
theorem map_value_get_foldl_addPair {jar : J} (hjar : JarLib.delta jar = []) {ts : List Str}
    (hts : ∀ t ∈ ts, ';' ∉ t) (n : Str) :
    (JarLib.get (ts.foldl addPair jar) n).map CookieLib.value =
      lastValue n ((JarLib.get jar n).map CookieLib.value) (ts.filterMap readPiece) := by
  induction ts generalizing jar with
  | nil => rfl
  | cons t ts ih =>
    obtain ⟨ht, hrest⟩ := List.forall_mem_cons.1 hts
    rw [List.foldl_cons, ih (by rw [delta_addPair, hjar]) hrest, map_value_get_addPair hjar ht,
      List.filterMap_cons]
    cases readPiece t <;> rfl

/-! ### Taking the lines apart -/

/-- The text of a `Cookie` line. -/
def lineText (ts : List Str) : Str :=
  "; ".toList.intercalate ts

/-- The blank after a semicolon is trimmed away. -/
theorem addPair_cons_space (jar : J) (t : Str) : addPair jar (' ' :: t) = addPair jar t := by
  rw [addPair, addPair, Text.trim_cons_of_isWhitespace t (by decide)]

/-- Splitting a line and adding its pieces adds its pairs. -/
theorem foldl_addPair_splitOn (jar : J) {ts : List Str} (hts : ∀ t ∈ ts, ';' ∉ t) :
    ((lineText ts).splitOn ';').foldl addPair jar = ts.foldl addPair jar := by
  have hspace : ∀ (jar : J) (s : Str),
      ((' ' :: s).splitOn ';').foldl addPair jar = (s.splitOn ';').foldl addPair jar := by
    intro jar s
    rw [List.splitOn_cons_eq_if_modifyHead, if_neg (by decide)]
    cases hs : s.splitOn ';' with
    | nil => exact absurd hs (List.splitOn_ne_nil _ _)
    | cons p ps =>
      rw [List.modifyHead_cons, List.foldl_cons, List.foldl_cons, addPair_cons_space]
  induction ts generalizing jar with
  | nil =>
    show addPair jar [] = jar
    exact if_pos rfl
  | cons t ts ih =>
    obtain ⟨ht, hrest⟩ := List.forall_mem_cons.1 hts
    cases ts with
    | nil =>
      rw [lineText, List.intercalate_singleton, List.splitOn_eq_singleton ht]
    | cons u ts =>
      have hline : lineText (t :: u :: ts) = t ++ ';' :: ' ' :: lineText (u :: ts) := by
        simp [lineText, List.intercalate_cons_cons]
      rw [hline, List.splitOn_append_cons_self_of_not_mem ht, List.foldl_cons, hspace, ih _ hrest]
      rfl

/-- A run of lines adds the pairs of all of them. -/
theorem foldl_addCookieLine (jar : J) {lines : List HeaderValue} {texts : List (List Str)}
    (hlines : lines.map HeaderValue.toStr = texts.map fun ts ↦ some (lineText ts))
    (htexts : ∀ ts ∈ texts, ∀ t ∈ ts, ';' ∉ t) :
    lines.foldl addCookieLine jar = texts.flatten.foldl addPair jar := by
  induction texts generalizing jar lines with
  | nil => rw [List.map_eq_nil_iff.1 hlines]; rfl
  | cons ts texts ih =>
    obtain ⟨line, rest, rfl, hline, hrest⟩ := List.map_eq_cons_iff.1 hlines
    obtain ⟨hts, htexts⟩ := List.forall_mem_cons.1 htexts
    rw [List.foldl_cons, List.flatten_cons, List.foldl_append, ih _ hrest htexts, addCookieLine,
      hline]
    exact congrArg (fun jar ↦ texts.flatten.foldl addPair jar) (foldl_addPair_splitOn jar hts)

/-! ### Writing a jar and replaying it -/

/-- What is pending in a jar after cookies of distinct names were added: they, and the changes of
other names. -/
theorem delta_foldl_add {jar : J} {cookies : List C} (hnd : (cookies.map CookieLib.name).Nodup) :
    (JarLib.delta (cookies.foldl JarLib.add jar)).Perm
      ((JarLib.delta jar).filter (fun d ↦ cookies.all (CookieLib.name d ≠ CookieLib.name ·)) ++
        cookies) := by
  induction cookies generalizing jar with
  | nil => simp
  | cons c cookies ih =>
    obtain ⟨hc, hnd⟩ := List.nodup_cons.1 hnd
    have hadd := (JarLib.delta_add jar c).filter
      fun d ↦ cookies.all (CookieLib.name d ≠ CookieLib.name ·)
    have hfirst : cookies.all (CookieLib.name c ≠ CookieLib.name ·) :=
      List.all_eq_true.2 fun d hd ↦ decide_eq_true fun heq ↦ hc (heq ▸ List.mem_map_of_mem hd)
    rw [List.filter_cons, if_pos hfirst, List.filter_filter] at hadd
    refine ((ih hnd).trans (hadd.append_right cookies)).trans (List.perm_middle.symm.trans ?_)
    -- a change survives if its name is neither the first nor one of the others
    refine List.Perm.of_eq (congrArg (· ++ c :: cookies) (List.filter_congr fun d _ ↦ ?_))
    exact Bool.eq_iff_iff.2 (by simp [and_comm])

theorem inner_foldl_add (jar : CookieJar J) (cookies : List C) :
    (cookies.foldl CookieJar.add jar).inner = cookies.foldl JarLib.add jar.inner := by
  induction cookies generalizing jar with
  | nil => rfl
  | cons c cookies ih => exact ih (jar.add c)

variable (H) in
/-- The `Set-Cookie` values a jar emits. -/
def emitted (jar : CookieJar J) : List HeaderValue :=
  Multimap.getAll (applyJarDelta jar.inner (ResponseParts.new : ResponseParts H)).headers
    HeaderName.setCookie

/-- The wire form of the cookie is a header value. -/
def isSendable (c : C) : Bool :=
  (HeaderValue.fromStr (CookieLib.display c)).isSome

/-- What a client keeps of a `Set-Cookie` value: its bytes up to the first semicolon. -/
def clientPair (v : HeaderValue) : Bytes :=
  v.bytes.takeWhile (· ≠ 59)

/-- Lines that replay emitted values: their pairs, in any order, joined with `"; "` and split over
the lines in any way. -/
def IsReplay (emitted lines : List HeaderValue) : Prop :=
  ∃ pieces : List (List Bytes), pieces.flatten.Perm (emitted.map clientPair) ∧
    lines.map HeaderValue.bytes = pieces.map (Text.utf8 "; ".toList).intercalate

/-- The line of one replayed pair. -/
def replayLine (v : HeaderValue) : HeaderValue where
  bytes := clientPair v
  valid := List.all_eq_true.2 fun b hb ↦ List.all_eq_true.1 v.valid b (List.takeWhile_subset _ hb)

theorem flatten_map_clientPair (values : List HeaderValue) :
    (values.map fun v ↦ [clientPair v]).flatten = values.map clientPair := by
  induction values with
  | nil => rfl
  | cons v values ih => exact congrArg (clientPair v :: ·) ih

theorem bytes_map_replayLine (values : List HeaderValue) :
    (values.map replayLine).map HeaderValue.bytes =
      (values.map fun v ↦ [clientPair v]).map (Text.utf8 "; ".toList).intercalate := by
  rw [List.map_map, List.map_map]
  exact List.map_congr_left fun v _ ↦ List.intercalate_singleton.symm

/-- Replaying every pair in a line of its own is a replay, in whatever order. -/
theorem isReplay_map_replayLine {emitted values : List HeaderValue} (h : values.Perm emitted) :
    IsReplay emitted (values.map replayLine) :=
  ⟨_, by rw [flatten_map_clientPair]; exact h.map clientPair, bytes_map_replayLine values⟩

/-- The one line that replays all pairs. -/
def replayAll (emitted : List HeaderValue) : HeaderValue where
  bytes := (Text.utf8 "; ".toList).intercalate (emitted.map clientPair)
  valid := List.all_eq_true.2 fun b hb ↦ by
    rcases Text.mem_intercalate hb with hsep | ⟨x, hx, hb⟩
    · exact List.all_eq_true.1 (by decide) b hsep
    · obtain ⟨v, -, rfl⟩ := List.mem_map.1 hx
      exact List.all_eq_true.1 (replayLine v).valid b hb

/-- Replaying all pairs in one line is a replay. -/
theorem isReplay_replayAll (emitted : List HeaderValue) : IsReplay emitted [replayAll emitted] :=
  ⟨[emitted.map clientPair], List.Perm.of_eq (List.append_nil _), rfl⟩

/-- The client keeps the pair of a well-formed cookie, and drops the attributes. -/
theorem WellFormed.clientPair_eq {c : C} (h : WellFormed c) {v : HeaderValue}
    (hv : HeaderValue.fromStr (CookieLib.display c) = some v) :
    clientPair v = Text.utf8 (pairText c) := by
  obtain ⟨attributes, hdisplay, hattr⟩ := CookieLib.display_eq c
  have hsplit : CookieLib.display c = pairText c ++ attributes := by
    rw [hdisplay, pairText, List.append_assoc, List.cons_append]
  have hpair : ∀ b ∈ Text.utf8 (pairText c), decide (b ≠ 59) = true := by
    intro b hb
    rw [Text.utf8_of_ascii fun x hx ↦ by have := h.pairText_visible x hx; omega] at hb
    obtain ⟨x, hx, rfl⟩ := List.mem_map.1 hb
    rw [decide_eq_true_eq]
    intro hsemi
    have hxs : x = ';' := by
      have hback := Text.toNat_ofNat_of_ascii (c := x)
        (by have := h.pairText_visible x hx; omega)
      rw [hsemi] at hback
      rw [← Char.ofNat_toNat x, ← hback]
      rfl
    exact h.semicolon_not_mem (hxs ▸ hx)
  have hrest : (Text.utf8 attributes).takeWhile (· ≠ 59) = [] := by
    rcases hattr with rfl | hhead
    · rfl
    · obtain ⟨rest, rfl⟩ := List.head?_eq_some_iff.1 hhead
      rw [← List.singleton_append, Text.utf8_append]
      rfl
  rw [clientPair, HeaderValue.fromStr_bytes hv, hsplit, Text.utf8_append,
    List.takeWhile_append_of_pos hpair, hrest, List.append_nil]

/-- What is sent for a change of a jar, as far as a client keeps it. -/
def sent (c : C) : Option Bytes :=
  (HeaderValue.fromStr (CookieLib.display c)).map clientPair

/-- The pairs sent for a jar to which cookies were added: those of the pending changes of other
names, and those of the cookies. -/
def sentPairs (jar : CookieJar J) (cookies : List C) : List Bytes :=
  ((JarLib.delta jar.inner).filter (fun d ↦ cookies.all (CookieLib.name d ≠ CookieLib.name ·)) ++
    cookies).filterMap sent

/-- The pairs a client keeps are those sent. -/
theorem map_clientPair_emitted (jar : CookieJar J) {cookies : List C}
    (hnd : (cookies.map CookieLib.name).Nodup) :
    ((emitted H (cookies.foldl CookieJar.add jar)).map clientPair).Perm
      (sentPairs jar cookies) := by
  have hvalues : ∀ cs : List C,
      (Multimap.valuesFor HeaderName.setCookie (setCookiePairs cs)).map clientPair =
        cs.filterMap sent := by
    intro cs
    induction cs with
    | nil => rfl
    | cons c cs ih =>
      rw [setCookiePairs]
      cases hv : HeaderValue.fromStr (CookieLib.display c) with
      | none =>
        rw [List.filterMap_cons_none (by rw [hv]; rfl),
          List.filterMap_cons_none (by rw [sent, hv]; rfl)]
        exact ih
      | some v =>
        rw [List.filterMap_cons_some (by rw [hv]; rfl), Multimap.valuesFor_cons, if_pos rfl,
          List.map_append, List.filterMap_cons_some (by rw [sent, hv]; rfl)]
        exact congrArg _ ih
  rw [emitted, getAll_applyJarDelta, ResponseParts.new, Multimap.getAll_empty, List.nil_append,
    hvalues, inner_foldl_add]
  exact (delta_foldl_add hnd).filterMap sent

/-! ### Reading a replay -/

/-- The bytes of a pair are text. -/
def isText (pair : Bytes) : Bool :=
  pair.all isVisibleAscii

/-- The text of a pair. -/
def textOfPair (pair : Bytes) : Str :=
  pair.map fun b ↦ Char.ofNat b.toNat

/-- What is read of a pair. -/
def readPair (pair : Bytes) : Option (Str × Str) :=
  readPiece (textOfPair pair)

/-- A pair a client keeps does not contain a semicolon. -/
theorem semicolon_not_mem_textOfPair {v : HeaderValue} : ';' ∉ textOfPair (clientPair v) := by
  intro h
  obtain ⟨b, hb, hchar⟩ := List.mem_map.1 h
  have hvalid : b.toNat.isValidChar := .inl (by
    have hlt := b.toNat_lt
    omega)
  rw [Char.ofNat, dif_pos hvalid] at hchar
  have hbyte : b.toNat = (59 : UInt8).toNat := congrArg Char.toNat hchar
  have hne := List.mem_takeWhile_imp (p := fun b ↦ decide (b ≠ 59)) hb
  exact of_decide_eq_true hne (UInt8.toNat_inj.1 hbyte)

/-- A line of text pairs is read as their texts. -/
theorem toStr_of_bytes {line : HeaderValue} {pairs : List Bytes}
    (hline : line.bytes = (Text.utf8 "; ".toList).intercalate pairs)
    (htext : ∀ pair ∈ pairs, isText pair) :
    line.toStr = some (lineText (pairs.map textOfPair)) := by
  have hsep : ∀ b ∈ Text.utf8 "; ".toList, isVisibleAscii b := List.all_eq_true.1 (by decide)
  have hvisible : ∀ b ∈ line.bytes, isVisibleAscii b := by
    intro b hb
    rw [hline] at hb
    rcases Text.mem_intercalate hb with hmem | ⟨pair, hpair, hb⟩
    · exact hsep b hmem
    · exact List.all_eq_true.1 (htext pair hpair) b hb
  rw [HeaderValue.toStr, if_pos (List.all_eq_true.2 hvisible), hline, Text.map_intercalate]
  rfl

/-- The texts of lines of text pairs. -/
theorem map_toStr_of_pieces {pieces : List (List Bytes)} {lines : List HeaderValue}
    (hlines : lines.map HeaderValue.bytes =
      pieces.map (Text.utf8 "; ".toList).intercalate)
    (hpieces : ∀ pair ∈ pieces.flatten, isText pair) :
    lines.map HeaderValue.toStr =
      (pieces.map (List.map textOfPair)).map fun ts ↦ some (lineText ts) := by
  induction pieces generalizing lines with
  | nil =>
    rw [List.map_eq_nil_iff.1 hlines]
    rfl
  | cons piece pieces ih =>
    obtain ⟨line, rest, rfl, hline, hrest⟩ := List.map_eq_cons_iff.1 hlines
    rw [List.flatten_cons, List.forall_mem_append] at hpieces
    rw [List.map_cons, ih hrest hpieces.2, List.map_cons, List.map_cons,
      toStr_of_bytes hline hpieces.1]

section Read

variable [Extensions.Slot E (CachedCookies J)] {parts : RequestParts H E}

/-- The jar read from lines of text pairs holds, for every name, the value of the last pair that
decodes to it. -/
theorem map_value_get_of_pieces {pieces : List (List Bytes)}
    (hfresh : (Extensions.Slot.get parts.extensions : Option (CachedCookies J)) = none)
    (hlines : (Multimap.getAll parts.headers HeaderName.cookie).map HeaderValue.bytes =
      pieces.map (Text.utf8 "; ".toList).intercalate)
    (hpieces : ∀ pair ∈ pieces.flatten, isText pair ∧ ';' ∉ textOfPair pair) (n : Str) :
    ((CookieJar.fromRequestParts parts : CookieJar J × _).1.get n).map CookieLib.value =
      lastValue n none (pieces.flatten.filterMap readPair) := by
  have htexts := map_toStr_of_pieces hlines fun pair hpair ↦ (hpieces pair hpair).1
  have hsemi : ∀ ts ∈ pieces.map (List.map textOfPair), ∀ t ∈ ts, ';' ∉ t := by
    intro ts hts t ht
    obtain ⟨piece, hpiece, rfl⟩ := List.mem_map.1 hts
    obtain ⟨pair, hpair, rfl⟩ := List.mem_map.1 ht
    exact (hpieces pair (List.mem_flatten.2 ⟨piece, hpiece, hpair⟩)).2
  have hget : (CookieJar.fromRequestParts parts : CookieJar J × _).1.inner =
      (pieces.flatten.map textOfPair).foldl addPair JarLib.new := by
    rw [CookieJar.fromRequestParts, requestCookieJar, hfresh, List.map_flatten]
    exact foldl_addCookieLine _ htexts hsemi
  rw [CookieJar.get, hget, map_value_get_foldl_addPair JarLib.delta_new, JarLib.get_new,
    List.filterMap_map]
  · rfl
  · intro t ht
    obtain ⟨pair, hpair, rfl⟩ := List.mem_map.1 ht
    exact (hpieces pair hpair).2

/-- Nothing is read from one line that is not text. -/
theorem get_of_toStr_eq_none {line : HeaderValue}
    (hfresh : (Extensions.Slot.get parts.extensions : Option (CachedCookies J)) = none)
    (hline : Multimap.getAll parts.headers HeaderName.cookie = [line]) (hnone : line.toStr = none)
    (n : Str) : (CookieJar.fromRequestParts parts : CookieJar J × _).1.get n = none := by
  have hget : (CookieJar.fromRequestParts parts : CookieJar J × _).1.inner = JarLib.new := by
    rw [CookieJar.fromRequestParts, requestCookieJar, hfresh]
    show (Multimap.getAll parts.headers HeaderName.cookie).foldl addCookieLine JarLib.new = _
    rw [hline, List.foldl_cons, addCookieLine, hnone, List.foldl_nil]
  rw [CookieJar.get, hget, JarLib.get_new]

end Read

/-! ### The exact condition -/

/-- What decoding makes of a name and a value. -/
def decodePair (p : Str × Str) : Option (Str × Str) :=
  (Percent.decodeUtf8 p.1).bind fun n ↦ (Percent.decodeUtf8 p.2).map fun v ↦ (n, v)

/-- The number of bytes of a name and a value. -/
def pairSize (p : Str × Str) : ℕ :=
  (Text.utf8 p.1).length + (Text.utf8 p.2).length

theorem decodePair_eq_some_iff {p q : Str × Str} :
    decodePair p = some q ↔
      Percent.decodeUtf8 p.1 = some q.1 ∧ Percent.decodeUtf8 p.2 = some q.2 := by
  rw [decodePair, Option.bind_eq_some_iff]
  constructor
  · rintro ⟨n, hn, hv⟩
    obtain ⟨v, hval, rfl⟩ := Option.map_eq_some_iff.1 hv
    exact ⟨hn, hval⟩
  · rintro ⟨hn, hv⟩
    exact ⟨q.1, hn, by rw [hv]; rfl⟩

/-- Decoding never grows a pair, and keeps its size only by leaving it alone. -/
theorem decodePair_size {p q : Str × Str} (h : decodePair p = some q) :
    pairSize q ≤ pairSize p ∧ (pairSize q = pairSize p → q = p) := by
  obtain ⟨hn, hv⟩ := decodePair_eq_some_iff.1 h
  rw [Percent.decodeUtf8_eq_some_iff] at hn hv
  have hn' := Percent.length_decode_le (Text.utf8 p.1)
  have hv' := Percent.length_decode_le (Text.utf8 p.2)
  rw [hn] at hn'
  rw [hv] at hv'
  refine ⟨Nat.add_le_add hn' hv', fun hsize ↦ ?_⟩
  rw [pairSize, pairSize] at hsize
  have hfix : ∀ {s t : Str}, Percent.decode (Text.utf8 s) = Text.utf8 t →
      (Text.utf8 t).length = (Text.utf8 s).length → t = s := by
    intro s t hdec hlen
    refine Text.utf8_injective (hdec ▸ Percent.decode_eq_self ?_)
    by_contra hesc
    have hlt := Percent.length_decode_lt (Bool.not_eq_false _ ▸ hesc)
    rw [hdec] at hlt
    omega
  exact Prod.ext (hfix hn (by omega)) (hfix hv (by omega))

/-- A cookie comes through with the pairs sent: all of them are text, one of them is read as the
cookie, and none is read as its name with another value. -/
structure Intact (sentPairs : List Bytes) (c : C) : Prop where
  text : ∀ pair ∈ sentPairs, isText pair
  arrives : ∃ sentPair ∈ sentPairs, readPair sentPair = some (pair c)
  apart : ∀ sentPair ∈ sentPairs, ∀ value,
    readPair sentPair = some (CookieLib.name c, value) → value = CookieLib.value c

/-- Among pairs that are read as a cookie, and not as its name with another value, the last of its
name is the cookie. -/
theorem Intact.lastValue_eq {c : C} {pairs sentPairs : List Bytes} (h : Intact sentPairs c)
    (hperm : pairs.Perm sentPairs) :
    lastValue (CookieLib.name c) none (pairs.filterMap readPair) = some (CookieLib.value c) := by
  obtain ⟨sentPair, hmem, hread⟩ := h.arrives
  refine lastValue_eq_some
    (.inr (List.mem_filterMap.2 ⟨sentPair, hperm.mem_iff.2 hmem, hread⟩)) fun value hvalue ↦ ?_
  obtain ⟨other, hother, hread'⟩ := List.mem_filterMap.1 hvalue
  exact h.apart other (hperm.mem_iff.1 hother) value hread'

/-! ### Replays in lines of their own -/

/-- The next request's headers with some `Cookie` lines. -/
def replayHeaders (lines : List HeaderValue) : H :=
  (lines.map fun v ↦ (HeaderName.cookie, v)).foldl
    (fun m p ↦ Multimap.append m p.1 p.2) Multimap.empty

omit [CookieLib C] in
@[simp]
theorem getAll_replayHeaders (lines : List HeaderValue) :
    Multimap.getAll (replayHeaders lines : H) HeaderName.cookie = lines := by
  rw [replayHeaders, Multimap.getAll_foldl_append, Multimap.getAll_empty, List.nil_append]
  induction lines with
  | nil => rfl
  | cons v lines ih =>
    rw [List.map_cons, Multimap.valuesFor_cons, if_pos rfl, ih]
    rfl

variable (E) in
/-- The next request with some `Cookie` lines. -/
def replayParts (lines : List HeaderValue) : RequestParts H E where
  method := .get
  uri := { path := "/".toList }
  headers := replayHeaders lines
  extensions := Extensions.empty
  httpExtensions := Extensions.empty

variable [Extensions.Slot E (CachedCookies J)] {jar : CookieJar J} {cookies : List C}

/-- Whatever the replay is, an intact cookie is read. -/
theorem Intact.get_eq {c : C} (hnd : (cookies.map CookieLib.name).Nodup)
    (h : Intact (sentPairs jar cookies) c) {parts : RequestParts H E}
    (hfresh : (Extensions.Slot.get parts.extensions : Option (CachedCookies J)) = none)
    (hreplay : IsReplay (emitted H (cookies.foldl CookieJar.add jar))
      (Multimap.getAll parts.headers HeaderName.cookie)) :
    ((CookieJar.fromRequestParts parts : CookieJar J × _).1.get (CookieLib.name c)).map
      CookieLib.value = some (CookieLib.value c) := by
  obtain ⟨pieces, hperm, hlines⟩ := hreplay
  have hsent := hperm.trans (map_clientPair_emitted (H := H) jar hnd)
  rw [map_value_get_of_pieces hfresh hlines fun sentPair hmem ↦ ?_]
  · exact h.lastValue_eq hsent
  · obtain ⟨v, -, rfl⟩ := List.mem_map.1 (hperm.mem_iff.1 hmem)
    exact ⟨h.text _ (hsent.mem_iff.1 hmem), semicolon_not_mem_textOfPair⟩

/-- What is read of pairs replayed in lines of their own. -/
theorem map_value_get_replayLines {values : List HeaderValue}
    (htext : ∀ v ∈ values, isText (clientPair v)) (n : Str) :
    ((CookieJar.fromRequestParts (replayParts E (values.map replayLine) : RequestParts H E) :
        CookieJar J × _).1.get n).map CookieLib.value =
      lastValue n none ((values.map clientPair).filterMap readPair) := by
  rw [← flatten_map_clientPair]
  refine map_value_get_of_pieces Extensions.Slot.get_empty ?_ (fun sentPair hmem ↦ ?_) n
  · exact (congrArg _ (getAll_replayHeaders _)).trans (bytes_map_replayLine values)
  · rw [flatten_map_clientPair] at hmem
    obtain ⟨v, hv, rfl⟩ := List.mem_map.1 hmem
    exact ⟨htext v hv, semicolon_not_mem_textOfPair⟩

/-- A pair that is not text spoils the line it stands in. -/
theorem toStr_replayAll {emitted : List HeaderValue} {v : HeaderValue} (hv : v ∈ emitted)
    (h : isText (clientPair v) = false) : (replayAll emitted).toStr = none := by
  refine if_neg fun hall ↦ Bool.eq_false_iff.1 h (List.all_eq_true.2 fun b hb ↦ ?_)
  exact List.all_eq_true.1 hall b (Text.mem_intercalate_of_mem (List.mem_map_of_mem hv) hb)

variable (H E) in
/-- The cookies come back from **every** replay of what the jar emits. A jar emits its cookies in no
particular order, so one replay would not do. -/
def RoundTrips (jar : CookieJar J) (cookies : List C) : Prop :=
  ∀ parts : RequestParts H E,
    (Extensions.Slot.get parts.extensions : Option (CachedCookies J)) = none →
    IsReplay (emitted H (cookies.foldl CookieJar.add jar))
      (Multimap.getAll parts.headers HeaderName.cookie) →
    ∀ c ∈ cookies, ((CookieJar.fromRequestParts parts : CookieJar J × _).1.get
      (CookieLib.name c)).map CookieLib.value = some (CookieLib.value c)

/-- A cookie that comes back from every replay is intact: the client may put all pairs into one
line, and any of them behind the others. -/
theorem RoundTrips.intact (h : RoundTrips H E jar cookies)
    (hnd : (cookies.map CookieLib.name).Nodup) {c : C} (hc : c ∈ cookies) :
    Intact (sentPairs jar cookies) c := by
  have hsent := map_clientPair_emitted (H := H) jar hnd
  have hof : ∀ sentPair ∈ sentPairs jar cookies,
      ∃ v ∈ emitted H (cookies.foldl CookieJar.add jar), clientPair v = sentPair :=
    fun sentPair hmem ↦ List.mem_map.1 (hsent.mem_iff.2 hmem)
  have htext : ∀ v ∈ emitted H (cookies.foldl CookieJar.add jar), isText (clientPair v) := by
    intro v hv
    by_contra hnot
    have hnone := toStr_replayAll hv (Bool.not_eq_true _ ▸ hnot)
    have hlines : Multimap.getAll (replayParts E [replayAll (emitted H
        (cookies.foldl CookieJar.add jar))] : RequestParts H E).headers HeaderName.cookie = _ :=
      getAll_replayHeaders _
    have hback := h _ Extensions.Slot.get_empty (hlines ▸ isReplay_replayAll _) c hc
    rw [get_of_toStr_eq_none Extensions.Slot.get_empty hlines hnone] at hback
    cases hback
  -- what comes back if the pairs are replayed in some order
  have hback : ∀ values : List HeaderValue,
      values.Perm (emitted H (cookies.foldl CookieJar.add jar)) →
      lastValue (CookieLib.name c) none ((values.map clientPair).filterMap readPair) =
        some (CookieLib.value c) := by
    intro values hperm
    rw [← map_value_get_replayLines (H := H) (E := E) (J := J)
      fun v hv ↦ htext v (hperm.mem_iff.1 hv)]
    refine h _ Extensions.Slot.get_empty ?_ c hc
    have hlines : Multimap.getAll (replayParts E (values.map replayLine) :
        RequestParts H E).headers HeaderName.cookie = _ := getAll_replayHeaders _
    rw [hlines]
    exact isReplay_map_replayLine hperm
  refine ⟨fun sentPair hmem ↦ ?_, ?_, fun sentPair hmem value hread ↦ ?_⟩
  · obtain ⟨v, hv, rfl⟩ := hof sentPair hmem
    exact htext v hv
  · have hmem := (mem_of_lastValue (hback _ (List.Perm.refl _))).resolve_left nofun
    obtain ⟨sentPair, hpair, hread⟩ := List.mem_filterMap.1 hmem
    exact ⟨sentPair, hsent.mem_iff.1 hpair, hread⟩
  · obtain ⟨v, hv, rfl⟩ := hof sentPair hmem
    obtain ⟨before, after, hsplit⟩ := List.append_of_mem hv
    have hlast := hback ((before ++ after) ++ [v]) (by
      rw [hsplit]
      exact (List.perm_append_singleton v _).trans List.perm_middle.symm)
    rw [List.map_append, List.filterMap_append, List.map_singleton,
      List.filterMap_cons_some hread, List.filterMap_nil, lastValue_append_singleton] at hlast
    exact Option.some.inj hlast

/-! ### Cookies without other changes -/

omit [Extensions.Slot E (CachedCookies J)] in
/-- What is read of the pair of a well-formed cookie, if it is sent. -/
theorem WellFormed.sent_eq {c : C} (h : WellFormed c) {sentPair : Bytes}
    (hsent : sent c = some sentPair) :
    isText sentPair ∧ readPair sentPair = decodePair (pair c) := by
  obtain ⟨v, hv, rfl⟩ := Option.map_eq_some_iff.1 hsent
  rw [h.clientPair_eq hv]
  refine ⟨List.all_eq_true.2 fun b hb ↦
    (HeaderValue.visible_of_mem_utf8 h.pairText_visible hb).2, ?_⟩
  rw [readPair, textOfPair, HeaderValue.map_ofNat_utf8 h.pairText_visible, readPiece,
    h.trim_pairText]
  exact h.parsePair_pairText

/-- Well-formed cookies of distinct names are intact among themselves, if each of them is sent and
holds no escape: nothing is changed by decoding, so the pairs are read as those that were added. -/
theorem intact_of_forall (hwf : ∀ c ∈ cookies, WellFormed c)
    (hnd : (cookies.map CookieLib.name).Nodup)
    (h : ∀ c ∈ cookies, isSendable c ∧
      Percent.hasEscape (Text.utf8 (CookieLib.name c)) = false ∧
      Percent.hasEscape (Text.utf8 (CookieLib.value c)) = false) {c : C} (hc : c ∈ cookies) :
    Intact (cookies.filterMap sent) c := by
  have hid : ∀ d ∈ cookies, ∀ sentPair, sent d = some sentPair →
      isText sentPair ∧ readPair sentPair = some (pair d) := by
    intro d hd sentPair hsent
    obtain ⟨-, hn, hv⟩ := h d hd
    obtain ⟨htext, hread⟩ := (hwf d hd).sent_eq hsent
    exact ⟨htext, hread.trans (decodePair_eq_some_iff.2
      ⟨Percent.decodeUtf8_eq_self_iff.2 hn, Percent.decodeUtf8_eq_self_iff.2 hv⟩)⟩
  refine ⟨fun sentPair hpair ↦ ?_, ?_, fun sentPair hpair value hread ↦ ?_⟩
  · obtain ⟨d, hd, hsent⟩ := List.mem_filterMap.1 hpair
    exact (hid d hd sentPair hsent).1
  · obtain ⟨v, hv⟩ := Option.isSome_iff_exists.1 (h c hc).1
    have hsent : sent c = some (clientPair v) := by rw [sent, hv, Option.map_some]
    exact ⟨_, List.mem_filterMap.2 ⟨c, hc, hsent⟩, (hid c hc _ hsent).2⟩
  · obtain ⟨d, hd, hsent⟩ := List.mem_filterMap.1 hpair
    obtain ⟨hname, hvalue⟩ := Prod.mk.inj (Option.some.inj
      ((hid d hd sentPair hsent).2.symm.trans hread))
    rw [← hvalue, List.inj_on_of_nodup_map hnd hd hc hname]

/-- Without other changes, well-formed cookies are intact exactly if each of them is sent and holds
no escape, neither in its name nor in its value. -/
theorem forall_intact_iff (hjar : JarLib.delta jar.inner = []) (hwf : ∀ c ∈ cookies, WellFormed c)
    (hnd : (cookies.map CookieLib.name).Nodup) :
    (∀ c ∈ cookies, Intact (sentPairs jar cookies) c) ↔ ∀ c ∈ cookies, isSendable c ∧
      Percent.hasEscape (Text.utf8 (CookieLib.name c)) = false ∧
      Percent.hasEscape (Text.utf8 (CookieLib.value c)) = false := by
  have hpairs : (cookies.map pair).map Prod.fst = cookies.map CookieLib.name := by
    rw [List.map_map]
    rfl
  have hndp : ((cookies.map pair).map Prod.fst).Nodup := hpairs ▸ hnd
  rw [sentPairs, hjar, List.filter_nil, List.nil_append]
  constructor
  · intro h
    have honto : ∀ q ∈ cookies.map pair,
        ∃ p ∈ (cookies.filter isSendable).map pair, decodePair p = some q := by
      intro q hq
      obtain ⟨c, hc, rfl⟩ := List.mem_map.1 hq
      obtain ⟨sentPair, hpair, hread⟩ := (h c hc).arrives
      obtain ⟨d, hd, hsent⟩ := List.mem_filterMap.1 hpair
      rw [((hwf d hd).sent_eq hsent).2] at hread
      have hsendable : isSendable d := by
        rw [isSendable, ← Option.isSome_map (f := clientPair)]
        exact Option.isSome_of_mem hsent
      exact ⟨pair d, List.mem_map_of_mem (List.mem_filter.2 ⟨hd, hsendable⟩), hread⟩
    have hsub : ((cookies.filter isSendable).map pair).Sublist (cookies.map pair) :=
      List.filter_sublist.map _
    -- As many pairs are added as replayed, and decoding only shortens, so none of them moves.
    have hfixed := List.forall_fixed_of_onto decodePair_size hndp.of_map hsub.subset
      (hndp.of_map.sublist hsub) honto
    intro c hc
    obtain ⟨hsrc, hfix⟩ := hfixed (pair c) (List.mem_map_of_mem hc)
    obtain ⟨d, hd, hdc⟩ := List.mem_map.1 hsrc
    obtain ⟨hdmem, hdsend⟩ := List.mem_filter.1 hd
    have hdc' : d = c := List.inj_on_of_nodup_map hnd hdmem hc (congrArg Prod.fst hdc)
    obtain ⟨hn, hv⟩ := decodePair_eq_some_iff.1 hfix
    exact ⟨hdc' ▸ hdsend, Percent.decodeUtf8_eq_self_iff.1 hn, Percent.decodeUtf8_eq_self_iff.1 hv⟩
  · exact fun h _ hc ↦ intact_of_forall hwf hnd h hc

/-! ### The round trip -/

/-- **When cookies come back**: exactly if each of them is intact in what is sent. Where nothing
else was pending in the jar, that is to say that each is sent at all and holds no escape, neither in
its name nor in its value. -/
theorem roundTrip_iff (hwf : ∀ c ∈ cookies, WellFormed c)
    (hnd : (cookies.map CookieLib.name).Nodup) :
    (RoundTrips H E jar cookies ↔ ∀ c ∈ cookies, Intact (sentPairs jar cookies) c) ∧
      (JarLib.delta jar.inner = [] → ((∀ c ∈ cookies, Intact (sentPairs jar cookies) c) ↔
        ∀ c ∈ cookies, isSendable c ∧
          Percent.hasEscape (Text.utf8 (CookieLib.name c)) = false ∧
          Percent.hasEscape (Text.utf8 (CookieLib.value c)) = false)) :=
  ⟨⟨fun h _ hc ↦ h.intact hnd hc, fun h _ hfresh hreplay c hc ↦ (h c hc).get_eq hnd hfresh hreplay⟩,
    fun hjar ↦ forall_intact_iff hjar hwf hnd⟩

/-! ### Two jars -/

section Jars

/-- The headers of these jars, and the extensions that remember them. -/
abbrev JarHeaders := AssocList HeaderName HeaderValue
abbrev JarExtensions := Option (CachedCookies PlainJar)

/-- A jar with a pending change. -/
def themedJar : CookieJar PlainJar :=
  CookieJar.new.add ⟨"theme".toList, "dark".toList⟩

/-- Cookies whose percent signs start no escapes. -/
def percentCookies : List PlainCookie :=
  [⟨"sid".toList, "100%".toList⟩, ⟨"q%".toList, "a%4 =b".toList⟩]

theorem wellFormed_of_all {c : PlainCookie} (hname : c.name ≠ [])
    (htoken : c.name.all isTokenChar) (hvalue : c.value.all fun x ↦
      decide ((32 ≤ x.toNat ∧ x.toNat < 127) ∧ x ∉ [';', ',', '"', '\'', '\\']))
    (htrim : Text.trim c.value = c.value) : WellFormed c :=
  ⟨hname, List.all_eq_true.1 htoken, fun x hx ↦ of_decide_eq_true (List.all_eq_true.1 hvalue x hx),
    htrim⟩

/-- They come back, whatever the client makes of them and of the pending change. -/
theorem roundTrips_percentCookies :
    RoundTrips JarHeaders JarExtensions themedJar percentCookies := by
  have hwf : ∀ c ∈ (⟨"theme".toList, "dark".toList⟩ : PlainCookie) :: percentCookies,
      WellFormed c := by
    simp only [percentCookies, List.forall_mem_cons]
    exact ⟨wellFormed_of_all (by decide) (by decide) (by decide) (by decide),
      wellFormed_of_all (by decide) (by decide) (by decide) (by decide),
      wellFormed_of_all (by decide) (by decide) (by decide) (by decide), nofun⟩
  refine (roundTrip_iff (List.forall_mem_cons.1 hwf).2 (by decide)).1.2 fun c hc ↦ ?_
  exact intact_of_forall hwf (by decide) (by decide) (List.mem_cons_of_mem _ hc)

/-- A value with an escape is written verbatim and comes back decoded. -/
theorem escaped_value_not_returned :
    let c : PlainCookie := ⟨"sid".toList, "a%41".toList⟩
    WellFormed c ∧
      ¬ RoundTrips JarHeaders JarExtensions (CookieJar.new : CookieJar PlainJar) [c] := by
  intro c
  have hwf : WellFormed c :=
    wellFormed_of_all (by decide) (by decide) (by decide) (by decide)
  have hnd : ([c].map CookieLib.name).Nodup := List.nodup_singleton _
  refine ⟨hwf, fun h ↦ ?_⟩
  have hnone := (forall_intact_iff rfl (List.forall_mem_singleton.2 hwf) hnd).1
    (fun d hd ↦ h.intact hnd hd) c List.mem_cons_self
  exact absurd hnone.2.2 (by decide)

end Jars

end CookieRoundTrip
