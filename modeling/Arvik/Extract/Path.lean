import Arvik.Core.Extract
import Arvik.Extract.PathDe
import Arvik.Foundation.PatternRendering
import Arvik.Router.Direct
import Arvik.Router.ParamDecoding

/-!
# Typed path parameters

`Path` reads the parameters that a route captured as a value of some type, of which nothing is known
here but what it asks for and what it makes of the answers.

Structures are read by name, whatever the order of the parameters and whatever else was captured
(`Path.struct_iff`). Tuples are read by position, and parameters behind the last element are not
looked at (`Path.tuple_iff`). A value that is written into the path of a route, with any escapes, is
found again by a handler of that route (`Path.fromRequestParts_of_rendered`).

What a type asks for is what a derived implementation asks: `IsStruct`, `IsTuple` and the scalars
are conditions on it, so the theorems are about all types that satisfy them and no type is fixed. A
field or an element is again of any type, and may itself fail; the results are equivalences, because
the error of one field is the error of the whole.

The last theorem is the one across modules. The text is written under a pattern of the router,
matched, decoded and deserialized; each of these has its theorem elsewhere, and what is left here is
that the parameter under a name is the text that was written for it.
-/

open Serde

section Extraction

variable [FloatLib] {H E B : Type}

/-- The implementation of a type, for path parameters. -/
abbrev PathTarget (α : Type) : Type :=
  Deserialize PathSource PathDeserializeError α

/-! ### The extractors -/

/-- Why there is no value. -/
inductive PathRejection
  | missingPathParams
  | deserializationFailed (message : Str)
  deriving DecidableEq

namespace PathRejection

def display : PathRejection → Str
  | missingPathParams => "No path parameters found".toList
  | deserializationFailed message => "Invalid path parameters: ".toList ++ message

/-- A fault of the server if nothing was attached to the request, and of the client otherwise. -/
def status : PathRejection → StatusCode
  | missingPathParams => .internalServerError
  | deserializationFailed _ => .badRequest

variable [Multimap H HeaderName HeaderValue] [Extensions E]

def intoResponse (self : PathRejection) : Response H E (Body H) :=
  rejectionResponse self.status self.display

end PathRejection

variable [Extensions E] [Extensions.Slot E PathParams]

/-- The extractor of a value. -/
def Path.fromRequestParts {α : Type} (target : PathTarget α) (parts : RequestParts H E) :
    Except PathRejection α :=
  match (Extensions.Slot.get parts.extensions : Option PathParams) with
  | none => .error .missingPathParams
  | some params =>
    (target.deserialize (.path params.pairs)).mapError fun e ↦ .deserializationFailed e.message

/-- The extractor of the parameters as they are. -/
def RawPathParams.fromRequestParts (parts : RequestParts H E) : List (Str × Str) :=
  ((Extensions.Slot.get parts.extensions : Option PathParams).map PathParams.pairs).getD []

/-! ### Types -/

section Targets

variable {ι : Type} [DecidableEq ι] {β : ι → Type}

omit [DecidableEq ι] in
/-- A structure with named fields: it asks for its fields, and reads the entries of a map. That it
was derived plainly is what makes it a record in this sense. -/
structure IsStruct [DecidableEq ι] (record : Record PathSource PathDeserializeError ι β)
    (target : PathTarget (∀ i, β i)) : Prop where
  hint : target.hint = .struct
  visit : ∀ entries, target.visit (.map entries) = record.visitMap entries

/-- A tuple: it asks for as many elements as it has, and reads a sequence, without a look at what is
left of the sequence in the end. -/
structure IsTuple [DecidableEq ι] (record : Record PathSource PathDeserializeError ι β)
    (target : PathTarget (∀ i, β i)) : Prop where
  hint : target.hint = .tuple
  visit : ∀ elements, target.visit (.seq elements) = record.visitSeq elements

/-- An integer. -/
structure IsInt (type : IntType) (target : PathTarget ℤ) : Prop where
  hint : target.hint = .int type
  visit : ∀ n, target.visit (.int type n) = .ok n

/-- A truth value. -/
structure IsBool (target : PathTarget Bool) : Prop where
  hint : target.hint = .bool
  visit : ∀ b, target.visit (.bool b) = .ok b

/-- A text. -/
structure IsString (target : PathTarget Str) : Prop where
  hint : target.hint = .string
  visit : ∀ s, target.visit (.str s) = .ok s

/-- A wrapper of a type. -/
structure IsNewtype {α : Type} (inner target : PathTarget α) : Prop where
  hint : target.hint = .newtypeStruct
  visit : ∀ source, target.visit (.newtypeStruct source) = inner.deserialize source

variable {record : Record PathSource PathDeserializeError ι β} {target : PathTarget (∀ i, β i)}

theorem IsStruct.deserialize_eq (h : IsStruct record target) (params : List (Str × Str)) :
    target.deserialize (.path params) = record.visitMap (PathSource.entries params) := by
  rw [Deserialize.deserialize, h.hint]
  exact h.visit _

theorem IsTuple.deserialize_eq (h : IsTuple record target) (params : List (Str × Str)) :
    target.deserialize (.path params) = record.visitSeq (PathSource.elements params) := by
  rw [Deserialize.deserialize, h.hint]
  exact h.visit _

end Targets

/-! ### Reading by name and by position -/

section Reading

variable {ι : Type} [DecidableEq ι] {β : ι → Type}
variable {record : Record PathSource PathDeserializeError ι β} {target : PathTarget (∀ i, β i)}

/-- The values of the parameters of a name. -/
def PathParams.valuesOf (self : PathParams) (name : Str) : List PathSource :=
  (self.pairs.filter fun p ↦ p.1 = name).map fun p ↦ .value p.2

/-- The names of parameters are read as texts, and the value of one can be skipped. -/
theorem PathSource.keyed (params : List (Str × Str)) :
    Record.Keyed PathSource.key (params.map fun p ↦ (p.1, PathSource.value p.2)) where
  identifier _ := rfl
  skips p hp := by
    obtain ⟨q, -, rfl⟩ := List.mem_map.1 hp
    exact ⟨_, rfl⟩

omit [FloatLib] in
theorem PathSource.entries_eq (params : List (Str × Str)) :
    PathSource.entries params =
      Record.entries PathSource.key (params.map fun p ↦ (p.1, PathSource.value p.2)) := by
  rw [PathSource.entries, Record.entries, List.map_map]
  rfl

omit [DecidableEq ι] in
theorem given_params (i : ι) (params : PathParams) :
    record.given i (params.pairs.map fun p ↦ (p.1, PathSource.value p.2)) =
      params.valuesOf (record.name i) := by
  rw [Record.given, List.filter_map, List.map_map]
  rfl

/-- The extractor reads what was attached to the request. -/
theorem Path.fromRequestParts_eq_ok_iff {α : Type} {target : PathTarget α}
    {parts : RequestParts H E} {v : α} :
    Path.fromRequestParts target parts = .ok v ↔
      ∃ params : PathParams, Extensions.Slot.get parts.extensions = some params ∧
        target.deserialize (.path params.pairs) = .ok v := by
  have hmap : ∀ read : Except PathDeserializeError α,
      read.mapError (fun e ↦ PathRejection.deserializationFailed e.message) = .ok v ↔
        read = .ok v := by
    rintro (e | w)
    · exact iff_of_false (fun h ↦ nomatch h) fun h ↦ nomatch h
    · exact ⟨fun h ↦ congrArg _ (Except.ok.inj h), fun h ↦ congrArg _ (Except.ok.inj h)⟩
  rw [Path.fromRequestParts]
  rcases (Extensions.Slot.get parts.extensions : Option PathParams) with - | params
  · exact iff_of_false (fun h ↦ nomatch h) fun ⟨_, h, _⟩ ↦ nomatch h
  · show Except.mapError _ _ = _ ↔ _
    rw [hmap]
    exact ⟨fun h ↦ ⟨params, rfl, h⟩, fun ⟨_, hparams, h⟩ ↦ Option.some.inj hparams ▸ h⟩

theorem IsStruct.deserialize_eq_ok_iff (h : IsStruct record target) {params : PathParams}
    {r : ∀ i, β i} : target.deserialize (.path params.pairs) = .ok r ↔
      ∀ i, record.Reads i (r i) (params.valuesOf (record.name i)) := by
  rw [h.deserialize_eq, PathSource.entries_eq,
    Record.visitMap_eq_ok_iff (PathSource.keyed params.pairs)]
  exact forall_congr' fun i ↦ by rw [given_params]

theorem IsTuple.deserialize_eq_ok_iff (h : IsTuple record target) {params : PathParams}
    {r : ∀ i, β i} : target.deserialize (.path params.pairs) = .ok r ↔
      ∀ i, ∃ p, params.pairs[record.fields.idxOf i]? = some p ∧
        (record.read i).deserialize (.value p.2) = .ok (r i) := by
  rw [h.deserialize_eq, Record.visitSeq_eq_ok_iff]
  refine forall_congr' fun i ↦ ?_
  simp only [PathSource.elements, List.getElem?_map, Option.map_eq_some_iff]
  constructor
  · rintro ⟨_, ⟨p, hp, rfl⟩, hread⟩
    exact ⟨p, hp, hread⟩
  · rintro ⟨p, hp, hread⟩
    exact ⟨_, ⟨p, hp, rfl⟩, hread⟩

/-- **Structures are read by name**: each field from the one parameter of its name, or from none if
its type allows for that. Parameters of other names do not count, and neither does the order of the
parameters. -/
theorem Path.struct_iff (h : IsStruct record target) :
    (∀ (parts : RequestParts H E) r, Path.fromRequestParts target parts = .ok r ↔
      ∃ params : PathParams, Extensions.Slot.get parts.extensions = some params ∧
        ∀ i, record.Reads i (r i) (params.valuesOf (record.name i))) ∧
    ∀ (parts parts' : RequestParts H E) (params params' : PathParams),
      Extensions.Slot.get parts.extensions = some params →
      Extensions.Slot.get parts'.extensions = some params' →
      (params.pairs.filter fun p ↦ ∃ i ∈ record.fields, p.1 = record.name i).Perm
        (params'.pairs.filter fun p ↦ ∃ i ∈ record.fields, p.1 = record.name i) →
      ∀ r, Path.fromRequestParts target parts = .ok r ↔
        Path.fromRequestParts target parts' = .ok r := by
  have hiff : ∀ (parts : RequestParts H E) r, Path.fromRequestParts target parts = .ok r ↔
      ∃ params : PathParams, Extensions.Slot.get parts.extensions = some params ∧
        ∀ i, record.Reads i (r i) (params.valuesOf (record.name i)) := fun parts r ↦ by
    rw [Path.fromRequestParts_eq_ok_iff]
    simp only [h.deserialize_eq_ok_iff]
  refine ⟨hiff, fun parts parts' params params' hget hget' hperm r ↦ ?_⟩
  -- the parameters of a field are among those that are kept
  have hkept : ∀ (params : PathParams) i, params.valuesOf (record.name i) =
      (((params.pairs.filter fun p ↦ ∃ i ∈ record.fields, p.1 = record.name i).filter
        fun p ↦ p.1 = record.name i).map fun p ↦ PathSource.value p.2) := by
    intro params i
    rw [PathParams.valuesOf, List.filter_filter]
    refine congrArg (List.map _) (List.filter_congr fun p _ ↦ ?_)
    by_cases hname : p.1 = record.name i
    · simp only [hname, decide_true, Bool.true_and]
      exact (decide_eq_true ⟨i, record.mem_fields i, rfl⟩).symm
    · simp only [hname, decide_false, Bool.false_and]
  have hreads : ∀ i, record.Reads i (r i) (params.valuesOf (record.name i)) ↔
      record.Reads i (r i) (params'.valuesOf (record.name i)) := by
    intro i
    rw [hkept, hkept]
    exact Record.reads_perm ((hperm.filter _).map _)
  rw [hiff, hiff, hget, hget']
  simp only [Option.some_inj, exists_eq_left']
  exact forall_congr' hreads

end Reading

/-! ### Values in paths -/

section Written

variable {α : Type} {inner target : PathTarget α}

/-- A text that can be the value of a parameter: it is not empty, and has none of the characters
that stay escaped. -/
structure IsParamText (text : Str) : Prop where
  ne_nil : text ≠ []
  plain : ∀ c ∈ text, isStructural c = false

/-- A value is written as a text that is read as the value. What texts a value can have is up to its
type. -/
structure Written (target : PathTarget α) (v : α) (text : Str) : Prop where
  reads : target.deserialize (.value text) = .ok v
  isParamText : IsParamText text

theorem IsInt.written {type : IntType} {target : PathTarget ℤ} (h : IsInt type target)
    (hbits : type.bits ≤ 64) {n : ℤ} (hn : type.InRange n) :
    Written target n (IntType.display n) where
  reads := by
    have hread : PathSource.deserializeValue (IntType.display n) (.int type) =
        .ok (.int type n) := by
      cases type
      case i128 => exact absurd hbits (by decide)
      case u128 => exact absurd hbits (by decide)
      all_goals
        rw [PathSource.deserializeValue, IntType.parse_display hn]
        · exact fun heq ↦ nomatch heq
        · exact fun heq ↦ nomatch heq
    rw [Deserialize.deserialize, h.hint]
    show (PathSource.deserializeValue (IntType.display n) (.int type) >>= target.visit) = _
    rw [hread]
    exact h.visit n
  isParamText := by
    refine ⟨IntType.display_ne_nil n, fun c hc ↦ ?_⟩
    rcases IntType.of_mem_display hc with rfl | hdigit
    · decide
    · -- no digit is structural
      have hall : ['/', '\\', '\x00', '\n', '\r'].all fun c ↦ !c.isDigit := by decide
      refine decide_eq_false fun hmem ↦ ?_
      have hnot := List.all_eq_true.1 hall c hmem
      rw [hdigit] at hnot
      exact absurd hnot (by decide)

theorem IsBool.written {target : PathTarget Bool} (h : IsBool target) (b : Bool) :
    Written target b (if b then "true".toList else "false".toList) := by
  have hread : ∀ b, PathSource.deserializeValue
      (if b = true then "true".toList else "false".toList) .bool = .ok (.bool b) := by
    rintro (- | -)
    · rfl
    · rfl
  refine ⟨?_, ?_⟩
  · rw [Deserialize.deserialize, h.hint]
    show (PathSource.deserializeValue _ .bool >>= target.visit) = _
    rw [hread]
    exact h.visit b
  · rcases b with - | -
    · exact ⟨by decide, List.forall_iff_forall_mem.1 (by decide)⟩
    · exact ⟨by decide, List.forall_iff_forall_mem.1 (by decide)⟩

theorem IsString.written {target : PathTarget Str} (h : IsString target) {s : Str}
    (hs : IsParamText s) : Written target s s := by
  refine ⟨?_, hs⟩
  rw [Deserialize.deserialize, h.hint]
  exact h.visit s

/-- A wrapper is written as what it wraps. -/
theorem IsNewtype.written (h : IsNewtype inner target) {v : α} {text : Str}
    (hv : Written inner v text) : Written target v text := by
  refine ⟨?_, hv.isParamText⟩
  rw [Deserialize.deserialize, h.hint]
  exact (h.visit _).trans hv.reads

open Percent

omit [FloatLib] in
/-- Encoding adds percent signs and digits only. -/
theorem mem_of_encodes {bytes encoded : Bytes} (h : Encodes bytes encoded) {c : UInt8}
    (hc : c ∈ encoded) : c ∈ bytes ∨ c = 37 ∨ (hexVal c).isSome := by
  induction h with
  | nil => exact absurd hc List.not_mem_nil
  | byte hb hrest ih =>
    rcases List.mem_cons.1 hc with rfl | hc
    · exact .inl List.mem_cons_self
    · exact (ih hc).imp_left (List.mem_cons_of_mem _)
  | @escape high low b _ _ hescape hrest ih =>
    rw [escape?, if_pos rfl, Option.bind_eq_some_iff] at hescape
    obtain ⟨x, hx, hmap⟩ := hescape
    obtain ⟨y, hy, -⟩ := Option.map_eq_some_iff.1 hmap
    rcases List.mem_cons.1 hc with rfl | hc
    · exact .inr (.inl rfl)
    rcases List.mem_cons.1 hc with rfl | hc
    · exact .inr (.inr (by rw [hx]; rfl))
    rcases List.mem_cons.1 hc with rfl | hc
    · exact .inr (.inr (by rw [hy]; rfl))
    exact (ih hc).imp_left (List.mem_cons_of_mem _)

omit [FloatLib] in
/-- An encoding of a text for a parameter is a segment of a path, and is decoded to the text. -/
theorem IsParamText.encoded {text encoded : Str} (h : IsParamText text)
    (hencodes : Encodes (Text.utf8 text) (Text.utf8 encoded)) :
    (encoded ≠ [] ∧ '/' ∉ encoded) ∧ percentDecode encoded = text := by
  refine ⟨⟨?_, fun hslash ↦ ?_⟩, ?_⟩
  · rintro rfl
    rcases htext : Text.utf8 text with - | ⟨b, bytes⟩
    · exact h.ne_nil (Text.utf8_eq_nil_iff.1 htext)
    · rw [htext, Text.utf8_nil] at hencodes
      exact nomatch hencodes
  · have hbyte : (47 : UInt8) ∈ Text.utf8 encoded := (Text.mem_utf8_iff (by decide)).2 hslash
    rcases mem_of_encodes hencodes hbyte with hmem | hpercent | hdigit
    · exact absurd (h.plain '/' ((Text.mem_utf8_iff (by decide)).1 hmem)) (by decide)
    · exact absurd hpercent (by decide)
    · exact absurd hdigit (by decide)
  · have hfilter : text.filter isStructural = [] :=
      List.filter_eq_nil_iff.2 fun c hc ↦ Bool.eq_false_iff.1 (h.plain c hc)
    rw [filter_isStructural, List.map_eq_nil_iff, List.filter_eq_nil_iff] at hfilter
    have hkeep : ∀ b ∈ Text.utf8 text, keepsEscape b = false := fun b hb ↦
      Bool.eq_false_iff.2 (hfilter b hb)
    obtain ⟨pieces, hcut, hpieces⟩ := hencodes.exists_cut hkeep
    rw [percentDecode_of_cut hcut, decodedPieces, hpieces, Text.fromUtf8_utf8, Option.getD_some]

end Written

section Rendered

open RoutePattern

variable {ι : Type} [DecidableEq ι] {β : ι → Type} {Hd L : Type} [MatchitLib]
variable {record : Record PathSource PathDeserializeError ι β} {target : PathTarget (∀ i, β i)}
variable [Extensions.Slot E MatchedPathExt] [Extensions.Apart E PathParams MatchedPathExt]

/-- A path is rendered from a pattern: for each name there is a text, encoded in any way. -/
structure Rendered (pieces : List Piece) (texts : Str → Str) (path : Str) : Prop where
  delimited : RoutePattern.delimited false pieces
  nodup : (names pieces).Nodup
  isParamText : ∀ name ∈ names pieces, IsParamText (texts name)
  path : ∃ encoded, path = render encoded pieces ∧
    ∀ name ∈ names pieces, Percent.Encodes (Text.utf8 (texts name)) (Text.utf8 (encoded name))

omit [FloatLib] in
/-- What the router finds on a path that is rendered from the pattern of its route. -/
theorem Rendered.params_eq [LawfulMatchit] {router : Router Hd L} {path : Str}
    {entry : RouteEntry Hd L} {params : Option PathParams} {texts : Str → Str}
    (h : Rendered (parse entry.pattern) texts path)
    (hfound : router.found path = some (entry, params))
    (hnames : names (parse entry.pattern) ≠ []) :
    params = some ⟨(names (parse entry.pattern)).map fun name ↦ (name, texts name)⟩ := by
  obtain ⟨encoded, hpath, hencodes⟩ := h.path
  obtain ⟨⟨idx, entry', caps⟩, hmatch, heq⟩ := Option.map_eq_some_iff.1 hfound
  obtain ⟨hentry, hparams⟩ := Prod.mk.inj heq
  obtain ⟨-, hcaps⟩ := Router.matchRoute_eq_some hmatch
  have hpattern : entry'.clone.pattern = entry.pattern := by rw [hentry]
  have htext := fun name hname ↦ (h.isParamText name hname).encoded (hencodes name hname)
  rw [show entry'.pattern = entry.pattern from hpattern, hpath,
    captures_render h.delimited fun name hname ↦ (htext name hname).1] at hcaps
  rw [← hparams, ← Option.some.inj hcaps, Router.captured, if_neg (by simpa using hnames),
    List.map_map]
  refine congrArg (fun pairs ↦ some (PathParams.mk pairs)) (List.map_congr_left fun name hname ↦ ?_)
  exact congrArg (name, ·) (htext name hname).2

omit [FloatLib] [MatchitLib] in
/-- What a handler is given has the parameters that were recorded. -/
theorem get_recordMatch (pattern : Str) (params : PathParams) (req : Request H E B) :
    (Extensions.Slot.get (Router.recordMatch pattern (some params)
      req).intoRequestParts.1.extensions : Option PathParams) = some params := by
  show Extensions.Slot.get (Extensions.Slot.insert (Extensions.Slot.insert req.extensions params)
    (MatchedPathExt.mk pattern)) = some params
  rw [Extensions.Apart.get_insert, Extensions.Slot.get_insert]

/-- **A value that is written into the path of a route is found by the handlers of the route**, by
name in a structure and by position in a tuple, however the texts in the path are escaped. -/
theorem Path.fromRequestParts_of_rendered [LawfulMatchit] {router : Router Hd L}
    {req : Request H E B} {entry : RouteEntry Hd L} {params : Option PathParams}
    {texts : Str → Str} {r : ∀ i, β i}
    (hfound : router.found req.uri.path = some (entry, params))
    (hrendered : Rendered (parse entry.pattern) texts req.uri.path)
    (hnames : names (parse entry.pattern) ≠ [])
    (hwritten : ∀ i, Written (record.read i) (r i) (texts (record.name i))) :
    (IsStruct record target → (∀ i, record.name i ∈ names (parse entry.pattern)) →
      Path.fromRequestParts target
        (Router.recordMatch entry.pattern params req).intoRequestParts.1 = .ok r) ∧
    (IsTuple record target →
      record.fields.map record.name <+: names (parse entry.pattern) →
      Path.fromRequestParts target
        (Router.recordMatch entry.pattern params req).intoRequestParts.1 = .ok r) := by
  rw [hrendered.params_eq hfound hnames]
  refine ⟨fun hstruct hmem ↦ ?_, fun htuple hprefix ↦ ?_⟩
  · refine Path.fromRequestParts_eq_ok_iff.2 ⟨_, get_recordMatch _ _ _,
      hstruct.deserialize_eq_ok_iff.2 fun i ↦ ?_⟩
    have hone : (names (parse entry.pattern)).filter (fun name ↦ name = record.name i) =
        [record.name i] := by
      rw [List.filter_eq, List.count_eq_one_of_mem hrendered.nodup (hmem i)]
      rfl
    have hvalues : PathParams.valuesOf
        ⟨(names (parse entry.pattern)).map fun name ↦ (name, texts name)⟩ (record.name i) =
          [.value (texts (record.name i))] := by
      rw [PathParams.valuesOf, List.filter_map]
      show ((_ : List Str).filter (fun name ↦ name = record.name i) |>.map _).map _ = _
      rw [hone]
      rfl
    rw [hvalues]
    exact (hwritten i).reads
  · refine Path.fromRequestParts_eq_ok_iff.2 ⟨_, get_recordMatch _ _ _,
      htuple.deserialize_eq_ok_iff.2 fun i ↦ ⟨(record.name i, texts (record.name i)), ?_,
        (hwritten i).reads⟩⟩
    obtain ⟨rest, hrest⟩ := hprefix
    have hidx : record.fields.idxOf i < (record.fields.map record.name).length := by
      rw [List.length_map]
      exact List.idxOf_lt_length_of_mem (record.mem_fields i)
    have hname : (names (parse entry.pattern))[record.fields.idxOf i]? =
        some (record.name i) := by
      rw [← hrest, List.getElem?_append_left hidx, List.getElem?_map,
        List.getElem?_idxOf (record.mem_fields i)]
      rfl
    rw [List.getElem?_map, hname]
    rfl

end Rendered

end Extraction

/-! ### A post of a user -/

namespace Path

section Post

private abbrev noFloats : FloatLib := ⟨Unit, Unit, fun _ ↦ none, fun _ ↦ none⟩

attribute [local instance] noFloats
attribute [local instance] MatchitLib.list

private abbrev PostExtensions := Option PathParams × Option MatchedPathExt

private abbrev PostRequest := Request (AssocList HeaderName HeaderValue) PostExtensions Unit

private inductive PostField
  | id
  | slug
  | pinned
  deriving DecidableEq

private def PostField.Value : PostField → Type
  | id => ℤ
  | slug => Str
  | pinned => Bool

private def unexpected : PathDeserializeError :=
  ⟨"invalid type".toList⟩

/-- The implementation of an integer type. -/
private def intTarget (type : IntType) : PathTarget ℤ where
  hint := .int type
  visit
    | .int type' n => if type' = type then .ok n else .error unexpected
    | _ => .error unexpected

private theorem isInt_u32 : IsInt .u32 (intTarget .u32) :=
  ⟨rfl, fun _ ↦ rfl⟩

/-- The implementation of a wrapper. -/
private def idTarget : PathTarget ℤ where
  hint := .newtypeStruct
  visit
    | .newtypeStruct source => (intTarget .u32).deserialize source
    | _ => .error unexpected

private def boolTarget : PathTarget Bool where
  hint := .bool
  visit
    | .bool b => .ok b
    | _ => .error unexpected

private def stringTarget : PathTarget Str where
  hint := .string
  visit
    | .str s => .ok s
    | _ => .error unexpected

private def postRecord : Record PathSource PathDeserializeError PostField PostField.Value where
  expecting := "a post".toList
  fields := [.id, .slug, .pinned]
  mem_fields := by rintro (- | - | -) <;> decide
  nodup := by decide
  name
    | .id => "id".toList
    | .slug => "slug".toList
    | .pinned => "pinned".toList
  name_injective := by
    rintro (- | - | -) (- | - | -) h <;> first | rfl | exact absurd h (by decide)
  read
    | .id => idTarget
    | .slug => stringTarget
    | .pinned => boolTarget
  absent _ := none

private def postStruct : PathTarget (∀ i, PostField.Value i) where
  hint := .struct
  visit
    | .map entries => postRecord.visitMap entries
    | _ => .error unexpected

private def post : ∀ i, PostField.Value i
  | .id => (7 : ℤ)
  | .slug => "hï".toList
  | .pinned => true

private def getPost (params : List (Str × Str)) :
    RequestParts (AssocList HeaderName HeaderValue) PostExtensions :=
  ⟨.get, { path := "/".toList }, ⟨[]⟩, Extensions.empty, (some ⟨params⟩, none), .http11⟩

/-- The fields in another order, and a parameter that is none. -/
theorem struct_iff_post : Path.fromRequestParts postStruct
    (getPost [("slug".toList, "hï".toList), ("tab".toList, "2".toList),
      ("pinned".toList, "true".toList), ("id".toList, "7".toList)]) = .ok post :=
  ((struct_iff (show IsStruct postRecord postStruct from ⟨rfl, fun _ ↦ rfl⟩)).1 _ _).2
    ⟨_, rfl, by rintro (- | - | -) <;> rfl⟩

private def postPattern : Str :=
  "/users/u{id}.html/{slug}/{pinned}".toList

private def postRouter : Router Unit Unit :=
  (Router.new.route postPattern (.any ())).getD .new

private def postRequest : PostRequest :=
  .new ⟨.get, { path := "/users/u7.html/h%c3%AF/true".toList }, ⟨[]⟩, Extensions.empty, (),
    .http11⟩

/-- The texts of the post, and as they stand in the path. -/
private def postTexts (slug name : Str) : Str :=
  if name = "id".toList then "7".toList else if name = "slug".toList then slug else "true".toList

private theorem forall_mem_names_postPattern {P : Str → Prop} :
    (∀ name ∈ RoutePattern.names (RoutePattern.parse postPattern), P name) ↔
      P "id".toList ∧ P "slug".toList ∧ P "pinned".toList := by
  show (∀ name ∈ ["id".toList, "slug".toList, "pinned".toList], P name) ↔ _
  simp only [List.forall_mem_cons, List.not_mem_nil, false_imp_iff, implies_true, and_true]

private theorem isParamText_slug : IsParamText "hï".toList :=
  ⟨by decide, List.forall_iff_forall_mem.1 (by decide)⟩

theorem fromRequestParts_of_rendered_post : ∃ entry params,
    postRouter.found postRequest.uri.path = some (entry, params) ∧
      fromRequestParts postStruct
        (Router.recordMatch entry.pattern params postRequest).intoRequestParts.1 = .ok post := by
  have hnames : ∀ i, postRecord.name i ∈
      RoutePattern.names (RoutePattern.parse postPattern) := by
    rintro (- | - | -) <;> decide
  have hpattern : (postRouter.found postRequest.uri.path).map (·.1.pattern) =
      some postPattern := by decide
  obtain ⟨⟨entry, params⟩, hfound, hentry⟩ := Option.map_eq_some_iff.1 hpattern
  have hentry : entry.pattern = postPattern := hentry
  have hid : Written idTarget 7 (IntType.display 7) :=
    (IsNewtype.mk rfl fun _ ↦ rfl).written (isInt_u32.written (by decide) (by decide))
  have hpinned : Written boolTarget true "true".toList := (IsBool.mk rfl fun _ ↦ rfl).written true
  have hencodes : Percent.Encodes [104, 0xC3, 0xAF] [104, 37, 99, 51, 37, 65, 70] :=
    .byte (by decide) (.escape (by decide) (.escape (by decide) .nil))
  have hrendered : Rendered (RoutePattern.parse entry.pattern) (postTexts "hï".toList)
      postRequest.uri.path := by
    rw [hentry]
    refine ⟨by decide, by decide, ?_, postTexts "h%c3%AF".toList, by decide, ?_⟩
    · exact forall_mem_names_postPattern.2
        ⟨hid.isParamText, isParamText_slug, hpinned.isParamText⟩
    · refine forall_mem_names_postPattern.2 ⟨.byte (by decide) .nil, hencodes, ?_⟩
      exact .byte (by decide) (.byte (by decide) (.byte (by decide) (.byte (by decide) .nil)))
  have hstruct : IsStruct postRecord postStruct := ⟨rfl, fun _ ↦ rfl⟩
  refine ⟨entry, params, hfound, (fromRequestParts_of_rendered hfound hrendered
    (by rw [hentry]; decide) ?_).1 hstruct ?_⟩
  · rintro (- | - | -)
    · exact hid
    · exact (IsString.mk rfl fun _ ↦ rfl).written isParamText_slug
    · exact hpinned
  · rw [hentry]
    exact hnames

end Post

end Path
