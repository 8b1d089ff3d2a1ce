import Arvik.Core.Body
import Arvik.Static.Agreement
import Arvik.Static.Embedded
import Arvik.Static.RangeGrammar

/-!
# The integrity of served ranges

Both services for static assets answer with a range of the content, with the whole content, or with
neither; the headers say which (`Intact`). They say it right for every validator and every range
that a request may have (`served_intact`), with the one exception that lies in the protocol: the
answer to a `HEAD` request tells a length and has no body.

The bounds of a range are computed with 64-bit numbers. The arithmetic is therefore transcribed a
second time, with every operation that could leave them made partial, and no operation does, and no
slice leaves the content (`parseRangeU64_eq`, `bodyLenU64_eq`, `sliceU64_eq`), so that the natural
numbers of the model are those of the machine. That a slice is within its buffer needs no argument
of its own: `ByteRange` carries the proof that its end is before the length.
-/

namespace Static

/-! ### Machine arithmetic -/

/-- A difference of 64-bit numbers, unless it underflows. -/
def checkedSub (a b : UInt64) : Option UInt64 :=
  if b ≤ a then some (a - b) else none

/-- A sum of 64-bit numbers, unless it overflows. -/
def checkedAdd (a b : UInt64) : Option UInt64 :=
  if a.toNat + b.toNat < 2 ^ 64 then some (a + b) else none

/-- The smaller one of two 64-bit numbers. -/
def minU64 (a b : UInt64) : UInt64 :=
  if b < a then b else a

/-- A range in 64-bit numbers. -/
structure MachineRange where
  start : UInt64
  stop : UInt64
  deriving DecidableEq

inductive MachineDecision
  | full
  | part (range : MachineRange)
  | unsatisfiable
  deriving DecidableEq

def ByteRange.toMachine {len : ℕ} (range : ByteRange len) : MachineRange :=
  ⟨UInt64.ofNat range.start, UInt64.ofNat range.stop⟩

def RangeDecision.toMachine {len : ℕ} : RangeDecision len → MachineDecision
  | full => .full
  | part range => .part range.toMachine
  | unsatisfiable => .unsatisfiable

/-- A 64-bit number in decimal. -/
def parseU64 (s : Str) : Option UInt64 :=
  (Text.parseUnsigned 64 s).map UInt64.ofNat

/-- The range between two texts, in 64-bit numbers; `none` where an operation leaves them. -/
def parseSpecU64 (start stop : Str) (len : UInt64) : Option MachineDecision :=
  if len = 0 then some .unsatisfiable
  else if start = [] then
    match parseU64 stop with
    | none => some .unsatisfiable
    | some suffix =>
      if suffix = 0 then some .unsatisfiable
      else do
        let take := minU64 suffix len
        return .part ⟨← checkedSub len take, ← checkedSub len 1⟩
  else
    match parseU64 start with
    | none => some .unsatisfiable
    | some first =>
      if len ≤ first then some .unsatisfiable
      else if stop = [] then do return .part ⟨first, ← checkedSub len 1⟩
      else
        match parseU64 stop with
        | none => some .unsatisfiable
        | some last =>
          if last < first then some .unsatisfiable
          else do return .part ⟨first, minU64 last (← checkedSub len 1)⟩

/-- The range a header asks for, in 64-bit numbers. -/
def parseRangeU64 (value : Option HeaderValue) (len : UInt64) : Option MachineDecision :=
  match (value.bind HeaderValue.toStr).bind (Text.stripPrefix "bytes=".toList) with
  | none => some .full
  | some spec =>
    if ',' ∈ spec ∨ spec = [] then some .full
    else match Text.splitOnce '-' spec with
      | none => some .unsatisfiable
      | some (start, stop) => parseSpecU64 start stop len

/-- The length of the body of a range, which is also how much of a file is read. -/
def bodyLenU64 (range : MachineRange) : Option UInt64 := do
  checkedAdd (← checkedSub range.stop range.start) 1

/-- The slice of a buffer from one position to another, both included; `none` where that is out of
the buffer. -/
def sliceU64 (bytes : Bytes) (range : MachineRange) : Option Bytes := do
  let stop ← checkedAdd range.stop 1
  if range.start ≤ stop ∧ stop.toNat ≤ bytes.length then
    some ((bytes.take stop.toNat).drop range.start.toNat)
  else none

theorem checkedSub_eq {a b : UInt64} (h : b.toNat ≤ a.toNat) :
    checkedSub a b = some (UInt64.ofNat (a.toNat - b.toNat)) := by
  rw [checkedSub, if_pos (UInt64.le_iff_toNat_le.2 h)]
  refine congrArg some (UInt64.toNat_inj.1 ?_)
  rw [UInt64.toNat_sub_of_le _ _ (UInt64.le_iff_toNat_le.2 h), UInt64.toNat_ofNat']
  exact (Nat.mod_eq_of_lt (Nat.lt_of_le_of_lt (Nat.sub_le ..) a.toNat_lt)).symm

theorem checkedAdd_eq {a b : UInt64} (h : a.toNat + b.toNat < 2 ^ 64) :
    checkedAdd a b = some (UInt64.ofNat (a.toNat + b.toNat)) := by
  rw [checkedAdd, if_pos h, UInt64.ofNat_add, UInt64.ofNat_toNat, UInt64.ofNat_toNat]

theorem toNat_minU64 (a b : UInt64) : (minU64 a b).toNat = min a.toNat b.toNat := by
  rw [minU64]
  split
  · next h => exact (Nat.min_eq_right (Nat.le_of_lt (UInt64.lt_iff_toNat_lt.1 h))).symm
  · next h => exact (Nat.min_eq_left (Nat.not_lt.1 fun hlt ↦ h (UInt64.lt_iff_toNat_lt.2 hlt))).symm

theorem minU64_eq_ofNat (a b : UInt64) : minU64 a b = UInt64.ofNat (min a.toNat b.toNat) := by
  rw [← toNat_minU64, UInt64.ofNat_toNat]

/-- A numeral that is read is the 64-bit number with its value. -/
theorem parseU64_cases (s : Str) :
    Text.parseUnsigned 64 s = none ∧ parseU64 s = none ∨
      ∃ n : UInt64, Text.parseUnsigned 64 s = some n.toNat ∧ parseU64 s = some n := by
  rw [parseU64]
  cases hs : Text.parseUnsigned 64 s with
  | none => exact .inl ⟨rfl, rfl⟩
  | some n =>
    have hlt : n < UInt64.size := (parseUnsigned_eq_some_iff.1 hs).2.2 ▸
      (parseUnsigned_eq_some_iff.1 hs).2.1
    exact .inr ⟨UInt64.ofNat n, congrArg some (UInt64.toNat_ofNat_of_lt' hlt).symm, rfl⟩

/-- The suffix length of a range is taken back from the end. -/
theorem parseSpecU64_suffix_eq (stop : Str) {len : UInt64} (hlen : len ≠ 0) :
    parseSpecU64 [] stop len = some (parseSpec [] stop len.toNat).toMachine := by
  have hne : len.toNat ≠ 0 := fun h ↦ hlen (UInt64.toNat_inj.1 h)
  have hlast : checkedSub len 1 = some (UInt64.ofNat (len.toNat - 1)) :=
    checkedSub_eq (Nat.one_le_iff_ne_zero.2 hne)
  rw [parseSpecU64, parseSpec, if_neg hlen, dif_neg hne, if_pos rfl, if_pos rfl]
  rcases parseU64_cases stop with ⟨hstop, hstop'⟩ | ⟨suffix, hstop, hstop'⟩
  · rw [hstop, hstop']
    rfl
  · simp only [hstop, hstop', hlast]
    by_cases hzero : suffix = 0
    · subst hzero
      rfl
    · have hzero' : suffix.toNat ≠ 0 := fun h ↦ hzero (UInt64.toNat_inj.1 h)
      have htake : (minU64 suffix len).toNat ≤ len.toNat :=
        toNat_minU64 suffix len ▸ Nat.min_le_right ..
      rw [if_neg hzero, dif_neg hzero', checkedSub_eq htake, toNat_minU64]
      rfl

/-- The positions of a range are compared with the length and with each other. -/
theorem parseSpecU64_from_eq {start : Str} (stop : Str) {len : UInt64} (hlen : len ≠ 0)
    (hstart : start ≠ []) :
    parseSpecU64 start stop len = some (parseSpec start stop len.toNat).toMachine := by
  have hne : len.toNat ≠ 0 := fun h ↦ hlen (UInt64.toNat_inj.1 h)
  have hlast : checkedSub len 1 = some (UInt64.ofNat (len.toNat - 1)) :=
    checkedSub_eq (Nat.one_le_iff_ne_zero.2 hne)
  rw [parseSpecU64, parseSpec, if_neg hlen, dif_neg hne, if_neg hstart, if_neg hstart]
  rcases parseU64_cases start with ⟨hfirst, hfirst'⟩ | ⟨first, hfirst, hfirst'⟩
  · rw [hfirst, hfirst']
    rfl
  simp only [hfirst, hfirst', hlast]
  by_cases hbeyond : len ≤ first
  · rw [if_pos hbeyond, dif_pos (UInt64.le_iff_toNat_le.1 hbeyond)]
    rfl
  rw [if_neg hbeyond, dif_neg fun h ↦ hbeyond (UInt64.le_iff_toNat_le.2 h)]
  by_cases hopen : stop = []
  · rw [if_pos hopen, if_pos hopen]
    simp [RangeDecision.toMachine, ByteRange.toMachine]
  rw [if_neg hopen, if_neg hopen]
  rcases parseU64_cases stop with ⟨hstop, hstop'⟩ | ⟨last, hstop, hstop'⟩
  · rw [hstop, hstop']
    rfl
  simp only [hstop, hstop']
  by_cases hback : last < first
  · rw [if_pos hback, dif_pos (UInt64.lt_iff_toNat_lt.1 hback)]
    rfl
  · rw [if_neg hback, dif_neg fun h ↦ hback (UInt64.lt_iff_toNat_lt.2 h)]
    have hend : (UInt64.ofNat (len.toNat - 1)).toNat = len.toNat - 1 :=
      UInt64.toNat_ofNat_of_lt' (Nat.lt_of_le_of_lt (Nat.sub_le ..) len.toNat_lt)
    simp [RangeDecision.toMachine, ByteRange.toMachine, minU64_eq_ofNat, hend]

/-- No operation on the bounds of a range leaves the 64 bits. -/
theorem parseSpecU64_eq (start stop : Str) (len : UInt64) :
    parseSpecU64 start stop len = some (parseSpec start stop len.toNat).toMachine := by
  rcases eq_or_ne len 0 with rfl | hlen
  · rfl
  rcases eq_or_ne start [] with rfl | hstart
  · exact parseSpecU64_suffix_eq stop hlen
  · exact parseSpecU64_from_eq stop hlen hstart

/-- The decision about a header is made in 64-bit numbers. -/
theorem parseRangeU64_eq (value : Option HeaderValue) (len : UInt64) :
    parseRangeU64 value len = some (parseRange value len.toNat).toMachine := by
  rw [parseRangeU64, parseRange]
  cases (value.bind HeaderValue.toStr).bind (Text.stripPrefix "bytes=".toList) with
  | none => rfl
  | some spec =>
    by_cases hspec : ',' ∈ spec ∨ spec = []
    · simp only [if_pos hspec]
      rfl
    · simp only [if_neg hspec]
      cases Text.splitOnce '-' spec with
      | none => rfl
      | some parts => exact parseSpecU64_eq parts.1 parts.2 len

theorem toNat_toMachine {len : ℕ} (hlen : len < 2 ^ 64) (range : ByteRange len) :
    range.toMachine.start.toNat = range.start ∧
    range.toMachine.stop.toNat = range.stop := by
  have hlt := range.lt
  have hle := range.le
  have hsize : UInt64.size = 2 ^ 64 := rfl
  exact ⟨UInt64.toNat_ofNat_of_lt' (by omega), UInt64.toNat_ofNat_of_lt' (by omega)⟩

/-- The length of a range fits into 64 bits. -/
theorem bodyLenU64_eq {len : ℕ} (hlen : len < 2 ^ 64) (range : ByteRange len) :
    bodyLenU64 range.toMachine = some (UInt64.ofNat (range.stop - range.start + 1)) := by
  obtain ⟨hstart, hstop⟩ := toNat_toMachine hlen range
  have hlt := range.lt
  have hle := range.le
  have hsize : UInt64.size = 2 ^ 64 := rfl
  have hdiff : (UInt64.ofNat (range.stop - range.start)).toNat = range.stop - range.start :=
    UInt64.toNat_ofNat_of_lt' (by omega)
  have hsum : (UInt64.ofNat (range.stop - range.start)).toNat + (1 : UInt64).toNat < 2 ^ 64 := by
    rw [hdiff]
    show _ + 1 < _
    omega
  rw [bodyLenU64, checkedSub_eq (by rwa [hstart, hstop]), hstart, hstop]
  show checkedAdd (UInt64.ofNat (range.stop - range.start)) 1 = _
  rw [checkedAdd_eq hsum, hdiff]
  rfl

/-- A range of a buffer is a slice of it. -/
theorem sliceU64_eq {bytes : Bytes} (hbytes : bytes.length < 2 ^ 64)
    (range : ByteRange bytes.length) :
    sliceU64 bytes range.toMachine = some ((bytes.take (range.stop + 1)).drop range.start) := by
  obtain ⟨hstart, hstop⟩ := toNat_toMachine hbytes range
  have hlt := range.lt
  have hle := range.le
  have hsize : UInt64.size = 2 ^ 64 := rfl
  have hnext : (UInt64.ofNat (range.stop + 1)).toNat = range.stop + 1 :=
    UInt64.toNat_ofNat_of_lt' (by omega)
  have hsum : range.toMachine.stop.toNat + (1 : UInt64).toNat < 2 ^ 64 := by
    rw [hstop]
    show _ + 1 < _
    omega
  have hwithin : range.toMachine.start ≤ UInt64.ofNat (range.stop + 1) ∧
      (UInt64.ofNat (range.stop + 1)).toNat ≤ bytes.length := by
    rw [UInt64.le_iff_toNat_le, hstart, hnext]
    omega
  rw [sliceU64, checkedAdd_eq hsum, hstop]
  show (if range.toMachine.start ≤ UInt64.ofNat (range.stop + 1) ∧
      (UInt64.ofNat (range.stop + 1)).toNat ≤ bytes.length then
    some ((bytes.take (UInt64.ofNat (range.stop + 1)).toNat).drop range.toMachine.start.toNat)
    else none) = _
  rw [if_pos hwithin, hnext, hstart]

/-! ### Headers and bodies -/

/-- The texts of the values a message has for a name. -/
def headerTexts {H : Type} [Multimap H HeaderName HeaderValue] (headers : H) (name : HeaderName) :
    List (Option Str) :=
  (Multimap.getAll headers name).map HeaderValue.toStr

/-- A response that carries an asset tells what of it: a range with its bounds and its length, or
all of it with its length; a refusal and a 304 have no body. To a `HEAD` request the body is left
out. -/
structure Intact {H E B : Type} [Multimap H HeaderName HeaderValue] (content : Bytes) (head : Bool)
    (response : Response H E B) (body : Bytes) : Prop where
  part : response.status = .partialContent → ∃ start stop, start ≤ stop ∧ stop < content.length ∧
    headerTexts response.headers HeaderName.contentRange =
      [some ("bytes ".toList ++ Nat.toDigits 10 start ++ '-' :: Nat.toDigits 10 stop ++
        '/' :: Nat.toDigits 10 content.length)] ∧
    headerTexts response.headers HeaderName.contentLength =
      [some (Nat.toDigits 10 (stop - start + 1))] ∧
    body = if head then [] else (content.take (stop + 1)).drop start
  whole : response.status = .ok →
    headerTexts response.headers HeaderName.contentLength =
      [some (Nat.toDigits 10 content.length)] ∧
    body = if head then [] else content
  empty : response.status = .rangeNotSatisfiable ∨ response.status = .notModified → body = []

section Asset

variable {H E B : Type} [Multimap H HeaderName HeaderValue] [Extensions E]

theorem toStr_fromNat (n : ℕ) : (HeaderValue.fromNat n).toStr = some (Nat.toDigits 10 n) := by
  obtain ⟨value, hvalue, htext⟩ :=
    HeaderValue.fromStr_visible (HeaderValue.toDigits_visible (n := n))
  obtain rfl : value = HeaderValue.fromNat n := by
    have hbytes := HeaderValue.fromStr_bytes hvalue
    cases value
    cases hbytes
    rfl
  exact htext

variable [FromBytes B] [HttpDateLib]

/-- The length and the range that a response carrying an asset tells. -/
theorem headerTexts_respond {asset : Asset B} {range : Option (ByteRange asset.len)} {head : Bool}
    {cacheControl : Option HeaderValue} {response : Response H E B}
    (h : respond asset range head cacheControl = some response) :
    headerTexts response.headers HeaderName.contentLength =
        [some (Nat.toDigits 10
          ((range.map fun range ↦ range.stop - range.start + 1).getD asset.len))] ∧
      headerTexts response.headers HeaderName.contentRange =
        (range.map fun range ↦ some (contentRange range)).toList := by
  simp only [respond, Option.bind_eq_bind, Option.bind_eq_some_iff, Option.pure_def,
    Option.some.injEq] at h
  obtain ⟨lastModified, hlast, rfl⟩ := h
  have hrange : ∀ s ∈ range.map contentRange, ∀ c ∈ s, 32 ≤ c.toNat ∧ c.toNat < 127 := by
    intro s hs
    obtain ⟨r, -, rfl⟩ := Option.map_eq_some_iff.1 hs
    exact contentRange_visible r
  simp only [headerTexts, assetBuilder, ResponseBuilder.status_new, ResponseBuilder.header_ofPairs,
    headerIf_ofPairs_of_text HeaderName.lastModified (fmt_mapM_visible hlast),
    ResponseBuilder.headerIf_ofPairs, headerIf_ofPairs_of_text HeaderName.contentRange hrange,
    ResponseBuilder.getAll_body_ofPairs]
  simp (disch := decide) only [Multimap.valuesFor_append, Multimap.valuesFor_map_toList_of_ne,
    Multimap.valuesFor_cons, Multimap.valuesFor_nil, valuesFor_map_toList_self, List.nil_append,
    List.append_nil]
  refine ⟨?_, ?_⟩
  · exact congrArg (fun text ↦ [text]) (toStr_fromNat _)
  · rcases range with - | range
    · rfl
    · obtain ⟨value, hvalue, htext⟩ := HeaderValue.fromStr_visible (contentRange_visible range)
      have hbind : ((some range).map contentRange).bind HeaderValue.fromStr = some value := hvalue
      rw [hbind]
      exact congrArg (fun text ↦ [text]) htext

/-! ### The two services -/

variable (reads : B → Bytes → Prop) {content : Bytes}

omit [Multimap H HeaderName HeaderValue] [Extensions E] [FromBytes B] [HttpDateLib] in
theorem contentRange_eq {len len' : ℕ} (hlen : len = len') (range : ByteRange len) :
    ((some range).map fun range ↦ some (contentRange range)).toList =
      [some ("bytes ".toList ++ Nat.toDigits 10 range.start ++ '-' :: Nat.toDigits 10 range.stop ++
        '/' :: Nat.toDigits 10 len')] := by
  rw [← hlen]
  rfl

/-- A response carrying an asset, or a range of it, is intact. -/
theorem respond_intact {asset : Asset B} (hlen : asset.len = content.length)
    (hempty : reads FromBytes.empty []) (hwhole : reads asset.whole content)
    (hslice : ∀ range, reads (asset.slice range)
      ((content.take (range.stop + 1)).drop range.start))
    {range : Option (ByteRange asset.len)} {head : Bool} {cacheControl : Option HeaderValue}
    {response : Response H E B} (h : respond asset range head cacheControl = some response) :
    ∃ body, reads response.body body ∧ Intact content head response body := by
  obtain ⟨hstatus, -, hbody⟩ := respond_eq_some h
  obtain ⟨hlength, hrange⟩ := headerTexts_respond h
  rcases range with - | range
  · replace hstatus : response.status = .ok := hstatus
    rw [Option.map_none, Option.getD_none, hlen] at hlength
    refine ⟨if head then [] else content, ?_, fun hpart ↦ ?_, fun _ ↦ ⟨hlength, rfl⟩,
      fun hnone ↦ ?_⟩
    · rw [hbody]
      cases head with
      | true => exact hempty
      | false => exact hwhole
    · rw [hstatus] at hpart
      exact absurd hpart (by decide)
    · rw [hstatus] at hnone
      exact absurd hnone (by decide)
  · replace hstatus : response.status = .partialContent := hstatus
    rw [contentRange_eq hlen] at hrange
    refine ⟨if head then [] else (content.take (range.stop + 1)).drop range.start, ?_,
      fun _ ↦ ⟨range.start, range.stop, range.le, hlen ▸ range.lt, hrange, hlength, rfl⟩,
      fun hok ↦ ?_, fun hnone ↦ ?_⟩
    · rw [hbody]
      cases head with
      | true => exact hempty
      | false => exact hslice range
    · rw [hstatus] at hok
      exact absurd hok (by decide)
    · rw [hstatus] at hnone
      exact absurd hnone (by decide)

/-- What the services have in common leaves an asset intact. -/
theorem serveAsset_intact {asset : Asset B} (hlen : asset.len = content.length)
    (hempty : reads FromBytes.empty []) (hwhole : reads asset.whole content)
    (hslice : ∀ range, reads (asset.slice range)
      ((content.take (range.stop + 1)).drop range.start))
    {req : Request H E B} {head : Bool} {cacheControl : Option HeaderValue}
    {response : Response H E B} (h : serveAsset asset req head cacheControl = some response) :
    ∃ body, reads response.body body ∧ Intact content head response body := by
  -- a response without the asset: its status is neither 206 nor 200
  have hwithout : ∀ {response : Response H E B} {code : StatusCode}, response.status = code →
      code ≠ .partialContent → code ≠ .ok → response.body = FromBytes.empty →
      ∃ body, reads response.body body ∧ Intact content head response body := by
    rintro response code rfl hpart hok hbody
    exact ⟨[], hbody ▸ hempty, fun h ↦ absurd h hpart, fun h ↦ absurd h hok, fun _ ↦ rfl⟩
  rw [serveAsset] at h
  split at h
  · obtain ⟨hstatus, -, hbody⟩ := notModified_eq_some h
    exact hwithout hstatus (by decide) (by decide) hbody
  · split at h
    · exact respond_intact reads hlen hempty hwhole hslice h
    · exact respond_intact reads hlen hempty hwhole hslice h
    · obtain rfl := Option.some.inj h
      obtain ⟨hstatus, hbody⟩ := rangeNotSatisfiable_spec (H := H) (E := E) (B := B) asset.len
      exact hwithout hstatus (by decide) (by decide) hbody

end Asset

section Services

variable {H E : Type} [Multimap H HeaderName HeaderValue] [Extensions E] [HttpDateLib]

/-- What the service for embedded files answers is intact. -/
theorem serveEmbeddedAsset_intact {file : EmbeddedFile} {found : EmbeddedMeta}
    {contentType : HeaderValue} {contentEncoding : Option HeaderValue} {vary : Bool}
    {req : Request H E (Body H)} {head : Bool} {cacheControl : Option HeaderValue}
    {response : Response H E (Body H)}
    (h : serveEmbeddedAsset file found contentType contentEncoding vary req head cacheControl =
      some response) :
    ∃ body, response.body.toBytes = .ok body ∧ Intact file.data head response body :=
  serveAsset_intact (fun body bytes ↦ body.toBytes = .ok bytes) rfl rfl
    (Body.toBytes_fromBytes _) (fun _ ↦ Body.toBytes_fromBytes _) h

/-- What the service for files answers about a file is intact. -/
theorem serveFsAsset_intact {files : Files} {candidate : FsCandidate} {req : Request H E FileBody}
    {head : Bool} {chunkSize : ℕ} {cacheControl : Option HeaderValue}
    {response : Response H E FileBody} {file : OpenFile}
    (hopen : files.openFile candidate.path = some file)
    (h : serveFsAsset files candidate req head chunkSize cacheControl = .own response) :
    Intact file.data.content head response response.body.content := by
  rw [serveFsAsset, hopen] at h
  cases hserve : serveAsset (fsAsset file candidate chunkSize) req head cacheControl with
  | none =>
    simp only [hserve, Handled.ofOption] at h
    cases h
  | some answer =>
    simp only [hserve, Handled.ofOption] at h
    obtain rfl := Handled.own.inj h
    have hslice : ∀ range : ByteRange (fsAsset file candidate chunkSize).len,
        ((fsAsset file candidate chunkSize).slice range).content =
          (file.data.content.take (range.stop + 1)).drop range.start := by
      intro range
      have hle := range.le
      have hlength : range.stop + 1 - range.start = range.stop - range.start + 1 := by omega
      rw [List.drop_take, hlength]
      rfl
    have hwhole : (fsAsset file candidate chunkSize).whole.content = file.data.content :=
      List.take_length
    obtain ⟨body, rfl, hintact⟩ := serveAsset_intact
      (fun body bytes ↦ body.content = bytes) rfl rfl hwhole hslice hserve
    exact hintact

/-- Without the file the service answers 404. -/
theorem serveFsAsset_of_openFile_eq_none {files : Files} {candidate : FsCandidate}
    {req : Request H E FileBody} {head : Bool} {chunkSize : ℕ} {cacheControl : Option HeaderValue}
    {response : Response H E FileBody} (hopen : files.openFile candidate.path = none)
    (h : serveFsAsset files candidate req head chunkSize cacheControl = .own response) :
    response.status = .notFound := by
  rw [serveFsAsset, hopen] at h
  obtain rfl := Handled.own.inj h
  simp only [notFound, ResponseBuilder.text, ResponseBuilder.status_new,
    ResponseBuilder.header_ofPairs]
  rfl

variable (H E) in
/-- **Served ranges are intact**, by both services and for all validators and ranges a request may
have; and the 64-bit numbers of the bounds, of the length and of the slice are those of the model,
without an overflow or a slice out of bounds. -/
theorem served_intact :
    (∀ (file : EmbeddedFile) (found : EmbeddedMeta) (contentType : HeaderValue)
      (contentEncoding : Option HeaderValue) (vary : Bool) (req : Request H E (Body H))
      (head : Bool) (cacheControl : Option HeaderValue) (response : Response H E (Body H)),
      serveEmbeddedAsset file found contentType contentEncoding vary req head cacheControl =
        some response →
      ∃ body, response.body.toBytes = .ok body ∧ Intact file.data head response body) ∧
    (∀ (files : Files) (candidate : FsCandidate) (req : Request H E FileBody) (head : Bool)
      (chunkSize : ℕ) (cacheControl : Option HeaderValue) (response : Response H E FileBody),
      serveFsAsset files candidate req head chunkSize cacheControl = .own response →
      (files.openFile candidate.path = none ∧ response.status = .notFound) ∨
        ∃ file, files.openFile candidate.path = some file ∧
          Intact file.data.content head response response.body.content) ∧
    ∀ (content : Bytes) (value : Option HeaderValue) (len : UInt64),
      content.length = len.toNat →
      parseRangeU64 value len = some (parseRange value content.length).toMachine ∧
        ∀ range, parseRange value content.length = .part range →
          bodyLenU64 range.toMachine = some (UInt64.ofNat (range.stop - range.start + 1)) ∧
          sliceU64 content range.toMachine =
            some ((content.take (range.stop + 1)).drop range.start) := by
  refine ⟨?_, ?_, ?_⟩
  · intro file found contentType contentEncoding vary req head cacheControl response h
    exact serveEmbeddedAsset_intact h
  · intro files candidate req head chunkSize cacheControl response h
    cases hopen : files.openFile candidate.path with
    | none => exact .inl ⟨rfl, serveFsAsset_of_openFile_eq_none hopen h⟩
    | some file => exact .inr ⟨file, rfl, serveFsAsset_intact hopen h⟩
  · intro content value len hlen
    have hlt : content.length < 2 ^ 64 := hlen ▸ len.toNat_lt
    refine ⟨?_, fun range _ ↦ ⟨bodyLenU64_eq hlt range, sliceU64_eq hlt range⟩⟩
    rw [hlen]
    exact parseRangeU64_eq value len

end Services

/-! ### A request for the head -/

section Head

attribute [local instance] noDates

private abbrev PlainFields := AssocList HeaderName HeaderValue

/-- A file of one byte. -/
private def tinyFile : EmbeddedFile where
  data := [1]
  sha256 := Vector.replicate 32 0
  lastModified := none

private def headRequest : Request PlainFields (Option Unit) (Body PlainFields) :=
  .new ⟨.head, { path := ['/'] }, Multimap.empty, Extensions.empty, Body.empty, .http11⟩

/-- The answer to a `HEAD` request is a 200 without the content. -/
theorem not_whole_headRequest :
    ¬ ∀ response : Response PlainFields (Option Unit) (Body PlainFields),
      serveEmbeddedAsset tinyFile ⟨none, embeddedEtag tinyFile.sha256⟩
        HeaderValue.applicationJson none false headRequest true none = some response →
      response.status = .ok → response.body.toBytes = .ok tinyFile.data := by
  intro hwhole
  exact absurd (hwhole _ rfl rfl) (by decide)

end Head

end Static
