import Arvik.Core.FieldList
import Arvik.Foundation.Radix

/-!
# Incoming trace contexts

The parent of a request's span is read from its headers: from `traceparent`, from the B3 headers or
from that of Jaeger, whichever of the configured propagators finds one first. They all end in
`makeRemoteContext`, which reads the two ids as hexadecimal numbers and refuses a zero.

The W3C recommendation fixes a `traceparent` value to the letter (`IsTraceparent`). The reader
splits the value at its dashes, looks at the lengths of the first four parts and leaves the rest to
an integer parser, so it takes values that are not valid (`Lenient`). A valid value is refused only
if a later version puts bytes that are no text behind the four fields. Apart from that the reader
does what the recommendation says: `acceptsExactly_iff`.

Between the two stands `Readable`, which is what the reader takes, as a form of the value: four
parts of the right lengths with anything behind them. A value is readable exactly if the reader
finds four parts (`isSome_extractTraceContext_iff`), and a valid value is one that is readable and
in which no character is lenient. So the difference is a set of characters, a sign and upper-case
letters, and the condition of the theorem looks at the value alone.
-/

/-! ### Span contexts -/

/-- An id that is written as a hexadecimal number of `w` bits. -/
structure HexId (w : ℕ) where
  value : ℕ
  lt : value < 2 ^ w
  deriving DecidableEq

/-- The id of a trace. -/
abbrev TraceId := HexId 128

/-- The id of a span. -/
abbrev SpanId := HexId 64

/-- The id that a text is the number of. -/
def HexId.fromHex (w : ℕ) (s : Str) : Option (HexId w) :=
  match h : Radix.fromStrRadix 16 w s with
  | some value => some ⟨value, Radix.fromStrRadix_lt (by decide) h⟩
  | none => none

theorem HexId.fromHex_eq_some_iff {w : ℕ} {s : Str} {id : HexId w} :
    fromHex w s = some id ↔ Radix.fromStrRadix 16 w s = some id.value := by
  obtain ⟨value, hlt⟩ := id
  rw [fromHex]
  split
  · next h => rw [Option.some_inj, HexId.mk.injEq, h, Option.some_inj]
  · next h => exact iff_of_false (Option.some_ne_none _).symm (h ▸ (Option.some_ne_none _).symm)

/-- The flags of a span. -/
structure TraceFlags where
  byte : UInt8
  deriving DecidableEq

namespace TraceFlags

def notSampled : TraceFlags := ⟨0⟩
def sampled : TraceFlags := ⟨1⟩

/-- The lowest bit tells that the trace is recorded. -/
def isSampled (self : TraceFlags) : Bool :=
  self.byte &&& 1 == 1

end TraceFlags

/-- The context of a span. -/
structure SpanContext (S : Type) where
  traceId : TraceId
  spanId : SpanId
  traceFlags : TraceFlags
  isRemote : Bool
  traceState : S

/-- Both ids are other than zero. -/
def SpanContext.isValid {S : Type} (self : SpanContext S) : Bool :=
  self.traceId.value ≠ 0 ∧ self.spanId.value ≠ 0

/-- The tracing library: its contexts, and the vendor states they carry along. -/
class OtelLib (C : Type) (S : outParam Type) where
  /-- A vendor state, if the text is one. -/
  stateFromStr : Str → Option S
  stateDefault : S
  current : C
  withRemoteSpanContext : C → SpanContext S → C
  /-- The context of the span in a context. -/
  spanContext : C → SpanContext S
  spanContext_withRemoteSpanContext : ∀ context span,
    spanContext (withRemoteSpanContext context span) = span

attribute [simp] OtelLib.spanContext_withRemoteSpanContext

namespace TraceContext

/-! ### The propagators -/

variable {H C S : Type} [Multimap H HeaderName HeaderValue] [OtelLib C S]

/-- The first line of a header, if it can be read as text. -/
def header (headers : H) (name : HeaderName) : Option Str :=
  (Multimap.get headers name).bind HeaderValue.toStr

/-- The current context with a remote span in it; ids that are no numbers or zero are refused. -/
def makeRemoteContext (traceId spanId : Str) (sampled : Bool) (traceState : S) : Option C :=
  (HexId.fromHex 128 traceId).bind fun traceId ↦
    (HexId.fromHex 64 spanId).bind fun spanId ↦
      let flags := if sampled then TraceFlags.sampled else TraceFlags.notSampled
      let context : SpanContext S := ⟨traceId, spanId, flags, true, traceState⟩
      if context.isValid then
        some (OtelLib.withRemoteSpanContext OtelLib.current context)
      else
        none

/-- The lowest bit of hexadecimal flags; what is no byte has none. -/
def sampledFlag (flags : Str) : Bool :=
  (Radix.fromStrRadix 16 8 flags).any fun flags ↦ flags &&& 1 == 1

/-- The vendor state that is carried along. -/
def traceState (C : Type) {S : Type} [OtelLib C S] (headers : H) : S :=
  ((header headers .tracestate).bind (OtelLib.stateFromStr C)).getD (OtelLib.stateDefault C)

/-- The parent that `traceparent` names. -/
def extractTraceContext (headers : H) : Option C :=
  (header headers .traceparent).bind fun traceparent ↦
    match traceparent.splitOn '-' with
    | version :: traceId :: spanId :: flags :: _ =>
      if version.length ≠ 2 ∨ traceId.length ≠ 32 ∨ spanId.length ≠ 16 ∨ flags.length ≠ 2 then
        none
      else
        makeRemoteContext traceId spanId (sampledFlag flags) (traceState C headers)
    | _ => none

/-- The parent that the B3 headers name, the single one or the several. -/
def extractB3 (headers : H) : Option C :=
  match (header headers .b3).filter fun value ↦ '-' ∈ value with
  | some single =>
    match single.splitOn '-' with
    | traceId :: spanId :: rest =>
      let sampled := rest.head?.any fun flag ↦
        flag == ['1'] || Text.eqIgnoreAsciiCase flag ['d']
      makeRemoteContext traceId spanId sampled (OtelLib.stateDefault C)
    | _ => none
  | none =>
    (header headers .xB3Traceid).bind fun traceId ↦
      (header headers .xB3Spanid).bind fun spanId ↦
        let sampled := (header headers .xB3Flags).any (· == ['1']) ||
          (header headers .xB3Sampled).any fun value ↦
            value == ['1'] || Text.eqIgnoreAsciiCase value "true".toList
        makeRemoteContext traceId spanId sampled (OtelLib.stateDefault C)

/-- The parent that the header of Jaeger names. -/
def extractJaeger (headers : H) : Option C :=
  (header headers .uberTraceId).bind fun value ↦
    match value.splitOn ':' with
    | traceId :: spanId :: _ :: rest =>
      makeRemoteContext traceId spanId (sampledFlag (rest.head?.getD ['0']))
        (OtelLib.stateDefault C)
    | _ => none

inductive Propagation
  | traceContext
  | b3
  | jaeger
  deriving DecidableEq

/-- The parent that one propagator finds. -/
def Propagation.extract (headers : H) : Propagation → Option C
  | traceContext => extractTraceContext headers
  | b3 => extractB3 headers
  | jaeger => extractJaeger headers

/-- The parent that the first successful propagator finds. -/
def extractParent (headers : H) : List Propagation → Option C
  | [] => none
  | propagator :: propagators =>
    match propagator.extract headers with
    | some context => some context
    | none => extractParent headers propagators

/-! ### What the propagators make of the ids -/

/-- A remote context is made of two numbers other than zero. -/
theorem makeRemoteContext_eq_some_iff {traceId spanId : Str} {sampled : Bool} {state : S}
    {context : C} :
    makeRemoteContext traceId spanId sampled state = some context ↔
      ∃ trace span, HexId.fromHex 128 traceId = some trace ∧
        HexId.fromHex 64 spanId = some span ∧
        trace.value ≠ 0 ∧ span.value ≠ 0 ∧
        OtelLib.withRemoteSpanContext OtelLib.current (⟨trace, span,
          if sampled then .sampled else .notSampled, true, state⟩ : SpanContext S) = context := by
  simp only [makeRemoteContext, SpanContext.isValid, Option.bind_eq_some_iff, decide_eq_true_eq,
    Option.ite_none_right_eq_some, Option.some_inj, and_assoc]
  constructor
  · rintro ⟨trace, htrace, span, hspan, h⟩
    exact ⟨trace, span, htrace, hspan, h⟩
  · rintro ⟨trace, span, htrace, hspan, h⟩
    exact ⟨trace, htrace, span, hspan, h⟩

/-! ### The recommendation -/

/-- The four fields of a `traceparent` value, and what stands behind them. -/
structure Traceparent where
  version : Str
  traceId : Str
  parentId : Str
  flags : Str
  rest : Str := []
  deriving DecidableEq

/-- The value of four fields and what stands behind them. -/
def Traceparent.render (self : Traceparent) : Str :=
  self.version ++ '-' :: (self.traceId ++ '-' ::
    (self.parentId ++ '-' :: (self.flags ++ self.rest)))

/-- A valid value: hexadecimal fields in lower case, of fixed lengths; the version `ff` and ids of
zeros are forbidden, and only after version `00` there may be further fields. -/
structure IsTraceparent (value : Str) (fields : Traceparent) : Prop where
  layout : value = fields.render
  version : Radix.IsLowerHex 2 fields.version ∧ fields.version ≠ "ff".toList
  traceId : Radix.IsLowerHex 32 fields.traceId ∧ ∃ c ∈ fields.traceId, c ≠ '0'
  parentId : Radix.IsLowerHex 16 fields.parentId ∧ ∃ c ∈ fields.parentId, c ≠ '0'
  flags : Radix.IsLowerHex 2 fields.flags
  rest : fields.rest = [] ∨ fields.version ≠ "00".toList ∧ fields.rest.head? = some '-'

variable (C) in
/-- A parent is found exactly if the value is valid, and then it is the one that is named there. -/
structure AcceptsExactly (headers : H) (line : HeaderValue) : Prop where
  accepts : (extractTraceContext headers : Option C).isSome ↔
    ∃ fields, IsTraceparent (FieldList.chars line) fields
  carries : ∀ (context : C) fields, extractTraceContext headers = some context →
    IsTraceparent (FieldList.chars line) fields →
      (OtelLib.spanContext context).traceId.value = Radix.number 16 fields.traceId ∧
      (OtelLib.spanContext context).spanId.value = Radix.number 16 fields.parentId ∧
      (OtelLib.spanContext context).traceFlags.isSampled =
        (Radix.number 16 fields.flags).testBit 0

/-! ### What the reader takes -/

/-- Four fields of the right lengths, of which two are read as numbers other than zero. This is what
the reader asks for; it does not ask for digits in lower case. -/
structure Readable (value : Str) (fields : Traceparent) : Prop where
  layout : value = fields.render
  dashes : '-' ∉ fields.version ∧ '-' ∉ fields.traceId ∧ '-' ∉ fields.parentId ∧
    '-' ∉ fields.flags
  lengths : fields.version.length = 2 ∧ fields.traceId.length = 32 ∧
    fields.parentId.length = 16 ∧ fields.flags.length = 2
  traceId : ∃ n ≠ 0, Radix.fromStrRadix 16 128 fields.traceId = some n
  parentId : ∃ n ≠ 0, Radix.fromStrRadix 16 64 fields.parentId = some n
  rest : fields.rest = [] ∨ fields.rest.head? = some '-'

/-- What is not looked at: whether the version and the flags are hexadecimal, the version `ff`, a
sign or upper case in the ids, and further fields after version `00`. -/
def Lenient (fields : Traceparent) : Prop :=
  ¬Radix.IsLowerHex 2 fields.version ∨ fields.version = "ff".toList ∨
    (∃ c ∈ fields.traceId ++ fields.parentId, Radix.isLenient c) ∨
    ¬Radix.IsLowerHex 2 fields.flags ∨ fields.version = "00".toList ∧ fields.rest ≠ []

/-- A value has one reading. -/
theorem Readable.eq {value : Str} {fields fields' : Traceparent} (h : Readable value fields)
    (h' : Readable value fields') : fields = fields' := by
  obtain ⟨version, traceId, parentId, flags, rest⟩ := fields
  obtain ⟨version', traceId', parentId', flags', rest'⟩ := fields'
  obtain ⟨hversion, htraceId, hparentId, hflags⟩ := h.lengths
  obtain ⟨hversion', htraceId', hparentId', hflags'⟩ := h'.lengths
  have hlayout := h.layout.symm.trans h'.layout
  -- every field has its length, so the fields are cut off one after another
  obtain ⟨rfl, hlayout⟩ := List.append_inj hlayout (hversion.trans hversion'.symm)
  obtain ⟨rfl, hlayout⟩ := List.append_inj (List.cons.inj hlayout).2 (htraceId.trans htraceId'.symm)
  obtain ⟨rfl, hlayout⟩ :=
    List.append_inj (List.cons.inj hlayout).2 (hparentId.trans hparentId'.symm)
  obtain ⟨rfl, rfl⟩ := List.append_inj (List.cons.inj hlayout).2 (hflags.trans hflags'.symm)
  rfl

/-- The parts of a value, as it is split at its dashes, are its fields. -/
theorem splitOn_dash_iff {value version traceId parentId flags : Str} :
    (∃ more, value.splitOn '-' = version :: traceId :: parentId :: flags :: more) ↔
      ('-' ∉ version ∧ '-' ∉ traceId ∧ '-' ∉ parentId ∧ '-' ∉ flags) ∧
        ∃ rest, value = (Traceparent.mk version traceId parentId flags rest).render ∧
          (rest = [] ∨ rest.head? = some '-') := by
  constructor
  · rintro ⟨more, h⟩
    obtain ⟨hversion, _, rfl, hsplit⟩ := Text.splitOn_eq_cons_cons_iff.1 h
    obtain ⟨htraceId, _, rfl, hsplit'⟩ := Text.splitOn_eq_cons_cons_iff.1 hsplit
    obtain ⟨hparentId, _, rfl, hsplit''⟩ := Text.splitOn_eq_cons_cons_iff.1 hsplit'
    obtain ⟨hflags, rest, rfl, hrest⟩ := Text.splitOn_eq_cons_iff.1 ⟨more, hsplit''⟩
    exact ⟨⟨hversion, htraceId, hparentId, hflags⟩, rest, rfl, hrest⟩
  · rintro ⟨⟨hversion, htraceId, hparentId, hflags⟩, rest, rfl, hrest⟩
    obtain ⟨more, h⟩ := Text.splitOn_eq_cons_iff.2 ⟨hflags, rest, rfl, hrest⟩
    have hafterParentId := Text.splitOn_eq_cons_cons_iff.2 ⟨hparentId, flags ++ rest, rfl, h⟩
    have hafterTraceId := Text.splitOn_eq_cons_cons_iff.2 ⟨htraceId, _, rfl, hafterParentId⟩
    exact ⟨more, Text.splitOn_eq_cons_cons_iff.2 ⟨hversion, _, rfl, hafterTraceId⟩⟩

/-- A parent is made of the fields of a readable text. -/
theorem readable_of_extractTraceContext {headers : H} {line : HeaderValue} {context : C}
    (hline : Multimap.get headers .traceparent = some line)
    (h : extractTraceContext headers = some context) :
    line.toStr.isSome ∧ ∃ fields, Readable (FieldList.chars line) fields ∧
      makeRemoteContext fields.traceId fields.parentId (sampledFlag fields.flags)
        (traceState C headers) = some context := by
  rw [extractTraceContext, header, hline, Option.bind_some] at h
  obtain ⟨value, hvalue, h⟩ := Option.bind_eq_some_iff.1 h
  refine ⟨hvalue ▸ rfl, ?_⟩
  rw [FieldList.chars_of_toStr hvalue]
  split at h
  · next version traceId parentId flags more hsplit =>
    obtain ⟨hlengths, h⟩ := Option.ite_none_left_eq_some.1 h
    obtain ⟨trace, span, htrace, hspan, htrace0, hspan0, -⟩ := makeRemoteContext_eq_some_iff.1 h
    obtain ⟨hdashes, rest, hlayout, hrest⟩ := splitOn_dash_iff.1 ⟨more, hsplit⟩
    exact ⟨⟨version, traceId, parentId, flags, rest⟩,
      { layout := hlayout
        dashes := hdashes
        lengths := by simpa only [not_or, ne_eq, not_not] using hlengths
        traceId := ⟨_, htrace0, HexId.fromHex_eq_some_iff.1 htrace⟩
        parentId := ⟨_, hspan0, HexId.fromHex_eq_some_iff.1 hspan⟩
        rest := hrest }, h⟩
  · cases h

/-- What is made of the fields of a readable text is the parent. -/
theorem extractTraceContext_of_readable {headers : H} {line : HeaderValue} {fields : Traceparent}
    (hline : Multimap.get headers .traceparent = some line) (hsome : line.toStr.isSome)
    (hreadable : Readable (FieldList.chars line) fields) :
    (extractTraceContext headers : Option C) = makeRemoteContext fields.traceId fields.parentId
      (sampledFlag fields.flags) (traceState C headers) := by
  obtain ⟨version, traceId, parentId, flags, rest⟩ := fields
  obtain ⟨value, hvalue⟩ := Option.isSome_iff_exists.1 hsome
  rw [FieldList.chars_of_toStr hvalue] at hreadable
  obtain ⟨more, hsplit⟩ :=
    splitOn_dash_iff.2 ⟨hreadable.dashes, rest, hreadable.layout, hreadable.rest⟩
  have hlengths : ¬(version.length ≠ 2 ∨ traceId.length ≠ 32 ∨ parentId.length ≠ 16 ∨
      flags.length ≠ 2) := by
    simpa only [not_or, ne_eq, not_not] using hreadable.lengths
  rw [extractTraceContext, header, hline, Option.bind_some, hvalue, Option.bind_some, hsplit]
  exact if_neg hlengths

/-- A readable text always makes a parent. -/
theorem Readable.exists_makeRemoteContext {value : Str} {fields : Traceparent}
    (h : Readable value fields) (sampled : Bool) (state : S) :
    ∃ context : C,
      makeRemoteContext fields.traceId fields.parentId sampled state = some context := by
  obtain ⟨trace, htrace0, htrace⟩ := h.traceId
  obtain ⟨span, hspan0, hspan⟩ := h.parentId
  have htraceId : HexId.fromHex 128 fields.traceId =
      some ⟨trace, Radix.fromStrRadix_lt (by decide) htrace⟩ := HexId.fromHex_eq_some_iff.2 htrace
  have hspanId : HexId.fromHex 64 fields.parentId =
      some ⟨span, Radix.fromStrRadix_lt (by decide) hspan⟩ := HexId.fromHex_eq_some_iff.2 hspan
  exact ⟨_, makeRemoteContext_eq_some_iff.2 ⟨_, _, htraceId, hspanId, htrace0, hspan0, rfl⟩⟩

theorem isSome_extractTraceContext_iff {headers : H} {line : HeaderValue}
    (hline : Multimap.get headers .traceparent = some line) :
    (extractTraceContext headers : Option C).isSome ↔
      line.toStr.isSome ∧ ∃ fields, Readable (FieldList.chars line) fields := by
  rw [Option.isSome_iff_exists]
  constructor
  · rintro ⟨context, h⟩
    obtain ⟨hsome, fields, hreadable, -⟩ := readable_of_extractTraceContext hline h
    exact ⟨hsome, fields, hreadable⟩
  · rintro ⟨hsome, fields, hreadable⟩
    obtain ⟨context, h⟩ := hreadable.exists_makeRemoteContext (C := C) (sampledFlag fields.flags)
      (traceState C headers)
    exact ⟨context, (extractTraceContext_of_readable hline hsome hreadable).trans h⟩

/-! ### Agreement -/

theorem not_mem_of_isLowerHex {n : ℕ} {s : Str} (h : Radix.IsLowerHex n s) : '-' ∉ s :=
  fun hmem ↦ absurd (h.2 '-' hmem) (by decide)

/-- An id in lower case is other than zero exactly if it is read so. -/
theorem isLowerHex_ne_zero_iff {n w : ℕ} {s : Str} (hn : 0 < n) (hw : 4 * n ≤ w)
    (hlength : s.length = n) (hstrict : ∀ c ∈ s, Radix.isLenient c = false) :
    (Radix.IsLowerHex n s ∧ ∃ c ∈ s, c ≠ '0') ↔
      ∃ m ≠ 0, Radix.fromStrRadix 16 w s = some m := by
  constructor
  · rintro ⟨hhex, hzero⟩
    exact ⟨_, (Radix.number_ne_zero_iff hhex.2).2 hzero,
      Radix.fromStrRadix_of_isLowerHex hhex hn hw⟩
  · rintro ⟨m, hm, hread⟩
    have hs : s ≠ [] := List.ne_nil_of_length_pos (hlength ▸ hn)
    obtain ⟨hdigits, rfl, -⟩ := (Radix.fromStrRadix_strict_iff hs hstrict).1 hread
    exact ⟨⟨hlength, hdigits⟩, (Radix.number_ne_zero_iff hdigits).1 hm⟩

theorem strict_of_isLowerHex {n : ℕ} {s : Str} (h : Radix.IsLowerHex n s) :
    ∀ c ∈ s, Radix.isLenient c = false :=
  fun c hc ↦ (Radix.isLowerHexDigit_iff.1 (h.2 c hc)).2

/-- A valid value is readable. -/
theorem IsTraceparent.readable {value : Str} {fields : Traceparent}
    (h : IsTraceparent value fields) : Readable value fields where
  layout := h.layout
  dashes := ⟨not_mem_of_isLowerHex h.version.1, not_mem_of_isLowerHex h.traceId.1,
    not_mem_of_isLowerHex h.parentId.1, not_mem_of_isLowerHex h.flags⟩
  lengths := ⟨h.version.1.1, h.traceId.1.1, h.parentId.1.1, h.flags.1⟩
  traceId := (isLowerHex_ne_zero_iff (by decide) (by decide) h.traceId.1.1
    (strict_of_isLowerHex h.traceId.1)).1 h.traceId
  parentId := (isLowerHex_ne_zero_iff (by decide) (by decide) h.parentId.1.1
    (strict_of_isLowerHex h.parentId.1)).1 h.parentId
  rest := h.rest.imp_right And.right

/-- In a valid value nothing had to be overlooked. -/
theorem IsTraceparent.not_lenient {value : Str} {fields : Traceparent}
    (h : IsTraceparent value fields) : ¬Lenient fields := by
  rintro (hversion | hversion | ⟨c, hc, hlenient⟩ | hflags | ⟨hversion, hrest⟩)
  · exact hversion h.version.1
  · exact h.version.2 hversion
  · rcases List.mem_append.1 hc with hc | hc
    · exact Bool.false_ne_true ((strict_of_isLowerHex h.traceId.1 c hc).symm.trans hlenient)
    · exact Bool.false_ne_true ((strict_of_isLowerHex h.parentId.1 c hc).symm.trans hlenient)
  · exact hflags h.flags
  · exact (h.rest.resolve_left hrest).1 hversion

/-- A value is valid if it is readable and nothing in it had to be overlooked. -/
theorem isTraceparent_iff {value : Str} {fields : Traceparent} :
    IsTraceparent value fields ↔ Readable value fields ∧ ¬Lenient fields := by
  refine ⟨fun h ↦ ⟨h.readable, h.not_lenient⟩, ?_⟩
  rintro ⟨h, hstrict⟩
  simp only [Lenient, not_or, not_exists, not_and, not_not, Bool.not_eq_true,
    List.mem_append] at hstrict
  obtain ⟨hversion, hff, hids, hflags, hmore⟩ := hstrict
  exact
    { layout := h.layout
      version := ⟨hversion, hff⟩
      traceId := (isLowerHex_ne_zero_iff (by decide) (by decide) h.lengths.2.1
        fun c hc ↦ hids c (.inl hc)).2 h.traceId
      parentId := (isLowerHex_ne_zero_iff (by decide) (by decide) h.lengths.2.2.1
        fun c hc ↦ hids c (.inr hc)).2 h.parentId
      flags := hflags
      rest := by
        rcases h.rest with hrest | hrest
        · exact .inl hrest
        · refine .inr ⟨fun hzero ↦ ?_, hrest⟩
          rw [hmore hzero] at hrest
          cases hrest }

theorem isSampled_ite (sampled : Bool) :
    (if sampled then TraceFlags.sampled else TraceFlags.notSampled).isSampled = sampled := by
  cases sampled
  · rfl
  · rfl

/-- The flag of valid flags is the lowest bit of their number. -/
theorem sampledFlag_of_isLowerHex {flags : Str} (h : Radix.IsLowerHex 2 flags) :
    sampledFlag flags = (Radix.number 16 flags).testBit 0 := by
  rw [sampledFlag, Radix.fromStrRadix_of_isLowerHex h (by decide) (by decide), Option.any_some,
    Nat.and_one_is_mod, Nat.testBit_zero]
  rfl

/-- The parent found for a valid value has the ids and the flag of the value. -/
theorem carries_of_isTraceparent {headers : H} {line : HeaderValue} {context : C}
    {fields : Traceparent} (hline : Multimap.get headers .traceparent = some line)
    (h : extractTraceContext headers = some context)
    (hvalid : IsTraceparent (FieldList.chars line) fields) :
    (OtelLib.spanContext context).traceId.value = Radix.number 16 fields.traceId ∧
      (OtelLib.spanContext context).spanId.value = Radix.number 16 fields.parentId ∧
      (OtelLib.spanContext context).traceFlags.isSampled =
        (Radix.number 16 fields.flags).testBit 0 := by
  obtain ⟨-, fields', hreadable, hmade⟩ := readable_of_extractTraceContext hline h
  obtain rfl := hreadable.eq hvalid.readable
  obtain ⟨trace, span, htrace, hspan, -, -, rfl⟩ := makeRemoteContext_eq_some_iff.1 hmade
  rw [HexId.fromHex_eq_some_iff,
    Radix.fromStrRadix_of_isLowerHex hvalid.traceId.1 (by decide) (by decide),
    Option.some_inj] at htrace
  rw [HexId.fromHex_eq_some_iff,
    Radix.fromStrRadix_of_isLowerHex hvalid.parentId.1 (by decide) (by decide),
    Option.some_inj] at hspan
  rw [OtelLib.spanContext_withRemoteSpanContext, isSampled_ite,
    sampledFlag_of_isLowerHex hvalid.flags]
  exact ⟨htrace.symm, hspan.symm, rfl⟩

/-- **When `traceparent` is read as the recommendation has it**: whenever the value is readable,
either it is text and nothing in it had to be overlooked, or neither. -/
theorem acceptsExactly_iff {headers : H} {line : HeaderValue}
    (hline : Multimap.get headers .traceparent = some line) :
    AcceptsExactly C headers line ↔
      ∀ fields, Readable (FieldList.chars line) fields → (line.toStr.isSome ↔ ¬Lenient fields) := by
  constructor
  · intro h fields hreadable
    have hvalid : (∃ fields, IsTraceparent (FieldList.chars line) fields) ↔ ¬Lenient fields := by
      constructor
      · rintro ⟨fields', hvalid⟩
        obtain ⟨hreadable', hstrict⟩ := isTraceparent_iff.1 hvalid
        rwa [hreadable.eq hreadable']
      · exact fun hstrict ↦ ⟨fields, isTraceparent_iff.2 ⟨hreadable, hstrict⟩⟩
    rw [← hvalid, ← h.accepts, isSome_extractTraceContext_iff hline,
      and_iff_left ⟨fields, hreadable⟩]
  · intro h
    refine ⟨?_, fun context fields hcontext hvalid ↦
      carries_of_isTraceparent hline hcontext hvalid⟩
    rw [isSome_extractTraceContext_iff hline]
    constructor
    · rintro ⟨hsome, fields, hreadable⟩
      exact ⟨fields, isTraceparent_iff.2 ⟨hreadable, (h fields hreadable).1 hsome⟩⟩
    · rintro ⟨fields, hvalid⟩
      obtain ⟨hreadable, hstrict⟩ := isTraceparent_iff.1 hvalid
      exact ⟨(h fields hreadable).2 hstrict, fields, hreadable⟩

section Examples

/-- A context that is a span, with any text for a vendor state. -/
@[reducible]
private def spanOnly : OtelLib (SpanContext Str) Str where
  stateFromStr := some
  stateDefault := []
  current := ⟨⟨0, by decide⟩, ⟨0, by decide⟩, .notSampled, false, []⟩
  withRemoteSpanContext _ span := span
  spanContext := id
  spanContext_withRemoteSpanContext _ _ := rfl

attribute [local instance] spanOnly

/-- The headers of a request that names a parent. -/
private def naming (line : HeaderValue) : AssocList HeaderName HeaderValue :=
  ⟨[(HeaderName.traceparent, line)]⟩

private def sampledParent (traceId : Str) : Traceparent :=
  { version := "00".toList, traceId, parentId := "00f067aa0ba902b7".toList, flags := "01".toList }

private theorem readable_sampledParent {traceId : Str} (hdash : '-' ∉ traceId)
    (hlength : traceId.length = 32)
    (hread : ∃ n ≠ 0, Radix.fromStrRadix 16 128 traceId = some n) :
    Readable (sampledParent traceId).render (sampledParent traceId) where
  layout := rfl
  dashes := by
    have hversion : '-' ∉ "00".toList := by decide
    have hparentId : '-' ∉ "00f067aa0ba902b7".toList := by decide
    have hflags : '-' ∉ "01".toList := by decide
    exact ⟨hversion, hdash, hparentId, hflags⟩
  lengths := ⟨rfl, hlength, rfl, rfl⟩
  traceId := hread
  parentId := by
    have hparentId : Radix.fromStrRadix 16 64 "00f067aa0ba902b7".toList =
        some 0xf067aa0ba902b7 := by decide +kernel
    exact ⟨_, by decide, hparentId⟩
  rest := .inl rfl

private def lowerId : Str := "4bf92f3577b34da6a3ce929d0e0e4736".toList
private def upperId : Str := "4BF92F3577B34DA6A3CE929D0E0E4736".toList

theorem acceptsExactly_sampled :
    AcceptsExactly (SpanContext Str)
      (naming (.fromStatic "00-4bf92f3577b34da6a3ce929d0e0e4736-00f067aa0ba902b7-01"))
      (.fromStatic "00-4bf92f3577b34da6a3ce929d0e0e4736-00f067aa0ba902b7-01") := by
  refine (acceptsExactly_iff (by decide +kernel)).2 fun fields hreadable ↦ ?_
  have hlower : Readable _ (sampledParent lowerId) := readable_sampledParent (by decide)
    (by decide) ⟨0x4bf92f3577b34da6a3ce929d0e0e4736, by decide, by decide +kernel⟩
  obtain rfl := hreadable.eq hlower
  refine iff_of_true (by decide +kernel) ?_
  have hids : ((sampledParent lowerId).traceId ++ (sampledParent lowerId).parentId).all
      fun c ↦ !Radix.isLenient c := by decide
  rintro (hversion | hversion | ⟨c, hc, hlenient⟩ | hflags | ⟨-, hrest⟩)
  · exact hversion (by decide)
  · exact absurd hversion (by decide)
  · have hstrict := List.all_eq_true.1 hids c hc
    rw [hlenient] at hstrict
    cases hstrict
  · exact hflags (by decide)
  · exact hrest rfl

/-- An id in upper case is not valid, and makes a parent. -/
theorem not_acceptsExactly_upperCase :
    ¬AcceptsExactly (SpanContext Str)
      (naming (.fromStatic "00-4BF92F3577B34DA6A3CE929D0E0E4736-00f067aa0ba902b7-01"))
      (.fromStatic "00-4BF92F3577B34DA6A3CE929D0E0E4736-00f067aa0ba902b7-01") := by
  intro h
  have hupper : Readable _ (sampledParent upperId) := readable_sampledParent (by decide)
    (by decide) ⟨0x4bf92f3577b34da6a3ce929d0e0e4736, by decide, by decide +kernel⟩
  obtain ⟨fields, hvalid⟩ := h.accepts.1 (by decide +kernel)
  obtain ⟨hreadable, hstrict⟩ := isTraceparent_iff.1 hvalid
  obtain rfl := hreadable.eq hupper
  exact hstrict (.inr (.inr (.inl ⟨'B', by decide, by decide⟩)))

end Examples

end TraceContext
