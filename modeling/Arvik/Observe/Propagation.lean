import Arvik.Foundation.HexNumeral
import Arvik.Observe.TraceContext

/-!
# Propagated parents

What calls a service names its span in the headers, in one or more of the three formats. How the
formats are written is stated here for themselves (`Parent.traceparent` and what follows it):
hexadecimal ids of full length, but for Jaeger, which writes as many digits as a number has.

`ids_extractParent` joins the writers to the reader. Whatever a request carries of the formats, and
whatever propagators are configured, the parent that is found is the one that was written in the
first configured format that is there, with its ids and its sampling.

The reader is written in the source for what it may be sent, with a fallback at each step; here it
is applied to what was really written, and each of its steps is a round trip of its own. A separator
never occurs in an id, so the fields are split where they were joined, and an id is read back from
its digits because none of them is lenient (`fromHex_traceIdText`).
-/

namespace TraceContext

/-- The span that a caller names. -/
structure Parent where
  traceId : TraceId
  spanId : SpanId
  sampled : Bool
  traceId_ne_zero : traceId.value ≠ 0
  spanId_ne_zero : spanId.value ≠ 0

namespace Parent

/-- A bit in two digits, as flags have it, or in one. -/
def bit (digits : ℕ) (b : Bool) : Str :=
  Radix.toHexPadded digits b.toNat

variable (self : Parent)

def traceIdText : Str :=
  Radix.toHexPadded 32 self.traceId.value

def spanIdText : Str :=
  Radix.toHexPadded 16 self.spanId.value

/-- The value of `traceparent`. -/
def traceparent : Str :=
  ['-'].intercalate ["00".toList, self.traceIdText, self.spanIdText, bit 2 self.sampled]

/-- The value of the single B3 header. -/
def b3 : Str :=
  ['-'].intercalate [self.traceIdText, self.spanIdText, bit 1 self.sampled]

/-- The value of the header of Jaeger, without a parent. -/
def uberTraceId : Str :=
  [':'].intercalate
    [Radix.toHex self.traceId.value, Radix.toHex self.spanId.value, ['0'], bit 1 self.sampled]

end Parent

/-- The parent in B3 headers: in the single one, or in the several. -/
inductive B3Parent
  | single (parent : Parent)
  | several (parent : Parent)

namespace B3Parent

def parent : B3Parent → Parent
  | single parent | several parent => parent

/-- The value of the single header. -/
def b3 : B3Parent → Option Str
  | single parent => some parent.b3
  | several _ => none

/-- The value of one of the several headers. -/
def part (text : Parent → Str) : B3Parent → Option Str
  | single _ => none
  | several parent => some (text parent)

end B3Parent

/-- What a caller writes into the headers, in none, some or all of the formats. -/
structure Injected where
  traceContext : Option Parent := none
  b3 : Option B3Parent := none
  jaeger : Option Parent := none

/-- The parent in a format. -/
def Injected.parent (self : Injected) : Propagation → Option Parent
  | .traceContext => self.traceContext
  | .b3 => self.b3.map B3Parent.parent
  | .jaeger => self.jaeger

variable {H C S : Type} [Multimap H HeaderName HeaderValue] [OtelLib C S]

/-- The headers of a request have what was written, and nothing else of the formats, so that no
format is found that the caller did not write. -/
structure Carries (headers : H) (injected : Injected) : Prop where
  traceparent : header headers .traceparent = injected.traceContext.map Parent.traceparent
  b3 : header headers .b3 = injected.b3.bind B3Parent.b3
  xB3Traceid : header headers .xB3Traceid = injected.b3.bind (B3Parent.part Parent.traceIdText)
  xB3Spanid : header headers .xB3Spanid = injected.b3.bind (B3Parent.part Parent.spanIdText)
  xB3Sampled : header headers .xB3Sampled =
    injected.b3.bind (B3Parent.part fun parent ↦ Parent.bit 1 parent.sampled)
  xB3Flags : header headers .xB3Flags = none
  uberTraceId : header headers .uberTraceId = injected.jaeger.map Parent.uberTraceId

/-- The ids and the sampling of the span in a context. -/
def ids (context : C) : TraceId × SpanId × Bool :=
  ((OtelLib.spanContext context).traceId, (OtelLib.spanContext context).spanId,
    (OtelLib.spanContext context).traceFlags.isSampled)

/-- The same of a parent that is named. -/
def Parent.ids (self : Parent) : TraceId × SpanId × Bool :=
  (self.traceId, self.spanId, self.sampled)

/-! ### The ids are read back -/

namespace Parent

variable (self : Parent)

theorem isLowerHex_traceIdText : Radix.IsLowerHex 32 self.traceIdText :=
  Radix.isLowerHex_toHexPadded (by decide) (Nat.lt_of_lt_of_eq self.traceId.lt (by decide))

theorem isLowerHex_spanIdText : Radix.IsLowerHex 16 self.spanIdText :=
  Radix.isLowerHex_toHexPadded (by decide) (Nat.lt_of_lt_of_eq self.spanId.lt (by decide))

theorem fromHex_traceIdText : HexId.fromHex 128 self.traceIdText = some self.traceId :=
  HexId.fromHex_eq_some_iff.2 (Radix.fromStrRadix_toHexPadded (by decide)
    (Nat.lt_of_lt_of_eq self.traceId.lt (by decide)) (by decide))

theorem fromHex_spanIdText : HexId.fromHex 64 self.spanIdText = some self.spanId :=
  HexId.fromHex_eq_some_iff.2 (Radix.fromStrRadix_toHexPadded (by decide)
    (Nat.lt_of_lt_of_eq self.spanId.lt (by decide)) (by decide))

theorem fromHex_toHex {w : ℕ} (id : HexId w) :
    HexId.fromHex w (Radix.toHex id.value) = some id :=
  HexId.fromHex_eq_some_iff.2 (Radix.fromStrRadix_toHex id.lt)

/-- Texts that are read as the ids of a parent make a context with these ids. -/
theorem ids_makeRemoteContext {traceId spanId : Str}
    (htrace : HexId.fromHex 128 traceId = some self.traceId)
    (hspan : HexId.fromHex 64 spanId = some self.spanId) (state : S) :
    (makeRemoteContext traceId spanId self.sampled state : Option C).map TraceContext.ids =
      some self.ids := by
  rw [makeRemoteContext_eq_some_iff.2 ⟨_, _, htrace, hspan, self.traceId_ne_zero,
    self.spanId_ne_zero, rfl⟩, Option.map_some, TraceContext.ids,
    OtelLib.spanContext_withRemoteSpanContext, isSampled_ite]
  rfl

end Parent

/-! ### The formats are read back -/

section Formats

variable {headers : H} {injected : Injected}

/-- Digits are neither dashes nor colons. -/
theorem separator_not_mem {n : ℕ} {s : Str} (h : Radix.IsLowerHex n s) : '-' ∉ s ∧ ':' ∉ s :=
  ⟨fun hmem ↦ absurd (h.2 _ hmem) (by decide), fun hmem ↦ absurd (h.2 _ hmem) (by decide)⟩

theorem sampledFlag_bit {digits : ℕ} (h : digits = 1 ∨ digits = 2) (b : Bool) :
    sampledFlag (Parent.bit digits b) = b := by
  rcases h with rfl | rfl <;> cases b <;> decide

theorem separator_not_mem_bit {digits : ℕ} (h : digits = 1 ∨ digits = 2) (b : Bool) :
    '-' ∉ Parent.bit digits b ∧ ':' ∉ Parent.bit digits b := by
  rcases h with rfl | rfl <;> cases b <;> decide

/-- The reader of `traceparent`. -/
theorem ids_extractTraceContext (h : Carries headers injected) :
    (extractTraceContext headers : Option C).map ids = injected.traceContext.map Parent.ids := by
  rw [extractTraceContext, h.traceparent]
  rcases injected.traceContext with - | p
  · rfl
  · have hsplit : p.traceparent.splitOn '-' =
        ["00".toList, p.traceIdText, p.spanIdText, Parent.bit 2 p.sampled] := by
      refine List.splitOn_intercalate _ ?_ (List.cons_ne_nil _ _)
      simp only [List.forall_mem_cons, List.not_mem_nil, false_imp_iff, implies_true, and_true]
      exact ⟨by decide, (separator_not_mem p.isLowerHex_traceIdText).1,
        (separator_not_mem p.isLowerHex_spanIdText).1, (separator_not_mem_bit (.inr rfl) _).1⟩
    have hlengths : ¬("00".toList.length ≠ 2 ∨ p.traceIdText.length ≠ 32 ∨
        p.spanIdText.length ≠ 16 ∨ (Parent.bit 2 p.sampled).length ≠ 2) := by
      have hbit : (Parent.bit 2 p.sampled).length = 2 := by cases p.sampled <;> decide
      rw [p.isLowerHex_traceIdText.1, p.isLowerHex_spanIdText.1, hbit]
      decide
    rw [Option.map_some, Option.bind_some, hsplit]
    show (if _ then none else makeRemoteContext _ _ _ _).map ids = _
    rw [if_neg hlengths, sampledFlag_bit (.inr rfl)]
    exact p.ids_makeRemoteContext p.fromHex_traceIdText p.fromHex_spanIdText _

/-- The reader of the B3 headers. -/
theorem ids_extractB3 (h : Carries headers injected) :
    (extractB3 headers : Option C).map ids =
      (injected.b3.map B3Parent.parent).map Parent.ids := by
  have hsampled : ∀ b, ((Parent.bit 1 b == ['1']) = b) ∧
      (Text.eqIgnoreAsciiCase (Parent.bit 1 b) ['d'] = false) ∧
      (Text.eqIgnoreAsciiCase (Parent.bit 1 b) "true".toList = false) := by
    intro b
    cases b <;> decide
  rw [extractB3, h.b3]
  rcases hb3 : injected.b3 with - | ⟨p⟩ | ⟨p⟩
  · show ((header headers .xB3Traceid).bind _).map ids = none
    rw [h.xB3Traceid, hb3]
    rfl
  · have hsplit : p.b3.splitOn '-' = [p.traceIdText, p.spanIdText, Parent.bit 1 p.sampled] := by
      refine List.splitOn_intercalate _ ?_ (List.cons_ne_nil _ _)
      simp only [List.forall_mem_cons, List.not_mem_nil, false_imp_iff, implies_true, and_true]
      exact ⟨(separator_not_mem p.isLowerHex_traceIdText).1,
        (separator_not_mem p.isLowerHex_spanIdText).1, (separator_not_mem_bit (.inl rfl) _).1⟩
    have hdash : '-' ∈ p.b3 := by
      rw [Parent.b3, List.intercalate_cons_cons]
      exact List.mem_append_left _ (List.mem_append_right _ (List.mem_singleton_self _))
    have hfilter : (some p.b3).filter (fun value ↦ decide ('-' ∈ value)) = some p.b3 :=
      Option.filter_eq_some_iff.2 ⟨rfl, decide_eq_true hdash⟩
    rw [Option.bind_some, B3Parent.b3, hfilter]
    dsimp only
    rw [hsplit]
    show (makeRemoteContext _ _ (Parent.bit 1 p.sampled == ['1'] || _) _).map ids = _
    rw [(hsampled _).1, (hsampled _).2.1, Bool.or_false]
    exact p.ids_makeRemoteContext p.fromHex_traceIdText p.fromHex_spanIdText _
  · show ((header headers .xB3Traceid).bind _).map ids = some p.ids
    rw [h.xB3Traceid, h.xB3Spanid, h.xB3Sampled, h.xB3Flags, hb3]
    show (makeRemoteContext _ _ (false || (Parent.bit 1 p.sampled == ['1'] || _)) _).map ids = _
    rw [(hsampled _).1, (hsampled _).2.2, Bool.or_false, Bool.false_or]
    exact p.ids_makeRemoteContext p.fromHex_traceIdText p.fromHex_spanIdText _

/-- The reader of the header of Jaeger. -/
theorem ids_extractJaeger (h : Carries headers injected) :
    (extractJaeger headers : Option C).map ids = injected.jaeger.map Parent.ids := by
  rw [extractJaeger, h.uberTraceId]
  rcases injected.jaeger with - | p
  · rfl
  · have hcolon : ∀ n, ':' ∉ Radix.toHex n := fun n hmem ↦
      absurd (Radix.isLowerHexDigit_of_mem_toHex hmem) (by decide)
    have hsplit : p.uberTraceId.splitOn ':' =
        [Radix.toHex p.traceId.value, Radix.toHex p.spanId.value, ['0'],
          Parent.bit 1 p.sampled] := by
      refine List.splitOn_intercalate _ ?_ (List.cons_ne_nil _ _)
      simp only [List.forall_mem_cons, List.not_mem_nil, false_imp_iff, implies_true, and_true]
      exact ⟨hcolon _, hcolon _, by decide, (separator_not_mem_bit (.inl rfl) _).2⟩
    rw [Option.map_some, Option.bind_some, hsplit]
    show (makeRemoteContext _ _ (sampledFlag (Parent.bit 1 p.sampled)) _).map ids = _
    rw [sampledFlag_bit (.inl rfl)]
    exact p.ids_makeRemoteContext (Parent.fromHex_toHex _) (Parent.fromHex_toHex _) _

/-- A propagator finds what was written in its format. -/
theorem ids_extract (h : Carries headers injected) (propagator : Propagation) :
    (propagator.extract headers : Option C).map ids =
      (injected.parent propagator).map Parent.ids := by
  rcases propagator with - | - | -
  · exact ids_extractTraceContext h
  · exact ids_extractB3 h
  · exact ids_extractJaeger h

variable (C) in
/-- **The parent that is found is the one that was written** in the first of the configured formats
that the request has. -/
theorem ids_extractParent (h : Carries headers injected) (propagators : List Propagation) :
    (extractParent headers propagators : Option C).map ids =
      (propagators.findSome? injected.parent).map Parent.ids := by
  induction propagators with
  | nil => rfl
  | cons propagator propagators ih =>
    have hfound := ids_extract (C := C) h propagator
    rw [extractParent, List.findSome?_cons]
    rcases hparent : injected.parent propagator with - | p
    · rw [hparent, Option.map_none, Option.map_eq_none_iff] at hfound
      rw [hfound]
      exact ih
    · rw [hparent] at hfound
      obtain ⟨context, hcontext, -⟩ := Option.map_eq_some_iff.1 hfound
      rw [hcontext] at hfound ⊢
      exact hfound

end Formats

section Examples

/-- The id of nothing. -/
private def noId (w : ℕ) : HexId w :=
  ⟨0, Nat.two_pow_pos w⟩

/-- A context that is a span. -/
@[reducible]
private def spanAlone : OtelLib (SpanContext Str) Str where
  stateFromStr := some
  stateDefault := []
  current := ⟨noId 128, noId 64, .notSampled, false, []⟩
  withRemoteSpanContext _ span := span
  spanContext := fun span ↦ span
  spanContext_withRemoteSpanContext _ _ := rfl

attribute [local instance] spanAlone

private def caller (spanId : SpanId) (h : spanId.value ≠ 0) : Parent where
  traceId := ⟨0x4bf92f3577b34da6a3ce929d0e0e4736, by decide⟩
  spanId := spanId
  sampled := true
  traceId_ne_zero := by decide
  spanId_ne_zero := h

/-- Of two callers in different formats, the first configured one counts. -/
theorem ids_extractParent_b3_first :
    let headers : AssocList HeaderName HeaderValue :=
      ⟨[(.uberTraceId, .fromStatic "4bf92f3577b34da6a3ce929d0e0e4736:1:0:1"),
        (.b3, .fromStatic "4bf92f3577b34da6a3ce929d0e0e4736-00f067aa0ba902b7-1")]⟩
    (extractParent headers [.traceContext, .b3, .jaeger] : Option (SpanContext Str)).map ids =
      some (⟨0x4bf92f3577b34da6a3ce929d0e0e4736, by decide⟩, ⟨0xf067aa0ba902b7, by decide⟩,
        true) := by
  intro headers
  let injected : Injected :=
    { b3 := some (.single (caller ⟨0xf067aa0ba902b7, by decide⟩ (by decide)))
      jaeger := some (caller ⟨1, by decide⟩ (by decide)) }
  have hcarries : Carries headers injected :=
    ⟨by decide +kernel, by decide +kernel, by decide +kernel, by decide +kernel, by decide +kernel,
      by decide +kernel, by decide +kernel⟩
  exact ids_extractParent (SpanContext Str) hcarries [.traceContext, .b3, .jaeger]

end Examples

end TraceContext
